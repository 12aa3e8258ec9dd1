import Nucleus.Process.Table

/-!
The rotation.  A selection scans the used slots in a circle, starting after the
slot selected last, and takes the first ready process.  The slot selected last
comes last itself, so a process that gives way to nobody is selected again.
-/

namespace Nucleus

inductive Selection
  /-- The current process keeps the processor. -/
  | kept (id : ProcessId)
  /-- Another process runs now. -/
  | switched (id : ProcessId)
  /-- Nothing can run. -/
  | idle
  deriving DecidableEq, Repr

namespace Selection

def running? : Selection → Option ProcessId
  | kept id => some id
  | switched id => some id
  | idle => none

def text : Selection → String
  | kept id => "Kept(ProcessId(" ++ id.text ++ "))"
  | switched id => "Switched(ProcessId(" ++ id.text ++ "))"
  | idle => "Idle"

end Selection

namespace ProcessTable

/-- Where a scan starts: after the slot selected last. -/
def scanStart (table : ProcessTable) : Nat :=
  match table.cursor with
  | some slot => slot.val + 1
  | none => 0

/-- The slot that a scan visits after `offset` others. -/
def scanned (table : ProcessTable) (offset : Nat) : Fin 16 :=
  Fin.ofNat 16 ((table.scanStart + offset) % table.used)

def scanOrder (table : ProcessTable) : List (Fin 16) :=
  (List.range table.used).map table.scanned

def nextReady? (table : ProcessTable) : Option (Fin 16) :=
  table.scanOrder.find? fun slot => table.slots[slot].isReady

/-- The process that was running is ready again. -/
def preempt (table : ProcessTable) : ProcessTable :=
  match table.current with
  | none => table
  | some slot => table.update slot fun process =>
      if process.isRunning then { process with state := .ready } else process

def dispatch (table : ProcessTable) (slot : Fin 16) : ProcessTable :=
  { table.update slot fun process => { process with state := .running } with
    current := some slot
    cursor := some slot }

def advance (table : ProcessTable) : ProcessTable × Selection :=
  match table.nextReady? with
  | some next =>
      let dispatched := table.preempt.dispatch next
      let id := dispatched.slots[next].id
      if table.current = some next then (dispatched, .kept id)
      else (dispatched, .switched id)
  | none =>
      match table.currentProcess? with
      | some process =>
          if process.isRunning then (table, .kept process.id)
          else ({ table with current := none }, .idle)
      | none => (table, .idle)

end ProcessTable

end Nucleus
