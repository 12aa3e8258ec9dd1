import Nucleus.Memory.Allocator
import Nucleus.Process.Basic
import Nucleus.Process.Error

/-!
The process table.  Slots are handed out in two phases: while the table grows,
the next slot that was never used; once all have been used, the first stopped
one.  Identifiers count upwards, wrap around, and pass over zero and those
still in use.
-/

namespace Nucleus

structure SpawnRequest where
  entry : UInt64
  stackSize : Nat
  mode : ProcessMode
  name : String
  exitLink : UInt64
  deriving Repr

structure ProcessTable where
  slots : Vector Process 16
  /-- The slot that owns the processor, unless it idles. -/
  current : Option (Fin 16)
  /-- The slot selected last. -/
  cursor : Option (Fin 16)
  /-- How many slots have been used at least once. -/
  used : Nat
  live : Nat
  nextId : UInt16
  deriving DecidableEq, Repr

namespace ProcessTable

def capacity : Nat := 16

def empty : ProcessTable where
  slots := Vector.replicate 16 Process.vacant
  current := none
  cursor := none
  used := 0
  live := 0
  nextId := 1

def update (table : ProcessTable) (slot : Fin 16)
    (change : Process → Process) : ProcessTable :=
  { table with slots := Slots.write table.slots slot (change table.slots[slot]) }

/-- The slot of the live process with an identifier. -/
def slotOf? (table : ProcessTable) (id : ProcessId) : Option (Fin 16) :=
  if id.isKernel then none
  else Slots.first? table.slots fun process =>
    process.isLive && process.id == id

def process? (table : ProcessTable) (id : ProcessId) : Option Process :=
  (table.slotOf? id).map fun slot => table.slots[slot]

def updateProcess (table : ProcessTable) (id : ProcessId)
    (change : Process → Process) : ProcessTable :=
  match table.slotOf? id with
  | some slot => table.update slot change
  | none => table

def currentProcess? (table : ProcessTable) : Option Process :=
  table.current.map fun slot => table.slots[slot]

def currentId? (table : ProcessTable) : Option ProcessId :=
  table.currentProcess?.map (·.id)

/-- The live processes with their slots, in slot order. -/
def liveSlots (table : ProcessTable) : List (Fin 16) :=
  Slots.all table.slots (·.isLive)

def runningCount (table : ProcessTable) : Nat :=
  (Slots.all table.slots (·.isRunning)).length

def focusedSlot? (table : ProcessTable) : Option (Fin 16) :=
  Slots.first? table.slots fun process => process.isLive && process.focused

def focusedId? (table : ProcessTable) : Option ProcessId :=
  table.focusedSlot?.map fun slot => table.slots[slot].id

/-- One word a live process, in slot order: slot, identifier and state, with a
star for the focus. -/
def summary (table : ProcessTable) : String :=
  String.intercalate " " (table.liveSlots.map fun slot =>
    let process := table.slots[slot]
    String.join
      [Numeral.decimal slot.val, ":", process.id.text, ":",
        process.state.name, if process.focused then "*" else ""])

/-- The slot for a new process, and how many slots are used from then on. -/
def slotForNew? (table : ProcessTable) : Option (Fin 16 × Nat) :=
  if grows : table.used < 16 then
    some (⟨table.used, grows⟩, table.used + 1)
  else
    (Slots.first? table.slots fun process => process.state == .stopped).map
      fun slot => (slot, table.used)

/-- Passes over zero and the identifiers of live processes.  With a slot to
spare these are at most sixteen, so seventeen attempts suffice. -/
def freshId (table : ProcessTable) : Nat → UInt16 → ProcessId
  | 0, candidate => ⟨candidate⟩
  | attempts + 1, candidate =>
      if candidate = 0 ∨ (table.slotOf? ⟨candidate⟩).isSome then
        table.freshId attempts (candidate + 1)
      else
        ⟨candidate⟩

def newId (table : ProcessTable) : ProcessId :=
  table.freshId 17 table.nextId

/-- Stack pointers are multiples of sixteen. -/
def alignStack (top : Nat) : Nat :=
  top - top % 16

def newProcess (request : SpawnRequest) (id : ProcessId)
    (stack : RegionHandle) (region : Region) : Process :=
  { Process.vacant with
    id := id
    mode := request.mode
    stack := some stack
    stackBase := region.base
    stackSize := region.length
    context := Context.start request.entry
      (UInt64.ofNat (alignStack region.stop))
      request.mode.processorState.raw request.exitLink
    name := ProcessName.ofString request.name
    state := .ready }

structure Creation where
  table : ProcessTable
  memory : Allocator
  outcome : Except ProcessError (ProcessId × Fin 16)

/-- Takes back what a creation had reserved: a slot that was never used before
counts as unused again. -/
def cancel (table : ProcessTable) (fresh : Bool) : ProcessTable :=
  if fresh then { table with used := table.used - 1 } else table

/-- Creates a ready process.  Slot and identifier are taken before the stack is
asked for; without a stack the slot is given up again, the identifier is not. -/
def create (table : ProcessTable) (memory : Allocator)
    (request : SpawnRequest) : Creation :=
  if request.stackSize = 0 then ⟨table, memory, .error .invalidStackSize⟩
  else
    match table.slotForNew? with
    | none => ⟨table, memory, .error .tableFull⟩
    | some (slot, used) =>
        let fresh := decide (table.used < used)
        let reserved := { table with used := used }
        let id := reserved.newId
        let counted := { reserved with nextId := id.raw + 1 }
        match memory.place? request.stackSize with
        | .error cause =>
            ⟨counted.cancel fresh, memory, .error (.noStack cause)⟩
        | .ok placement =>
            let grant := memory.grant placement id
            { table := { counted with
                slots := Slots.write counted.slots slot
                  (newProcess request id grant.handle grant.region)
                live := counted.live + 1 }
              memory := grant.memory
              outcome := .ok (id, slot) }

/-- The end of the new process's stack. -/
def Creation.overflows (created : Creation) : Bool :=
  match created.outcome with
  | .ok (_, slot) => overflowsWord created.table.slots[slot].stackTop
  | .error _ => false

structure Termination where
  table : ProcessTable
  memory : Allocator
  /-- How many regions the process gave back. -/
  released : Nat
  /-- The processor has to be given to someone else. -/
  wasRunning : Bool

/-- Vacates a slot and gives back everything that its process owns. -/
def clearSlot (table : ProcessTable) (memory : Allocator)
    (slot : Fin 16) : Termination :=
  let process := table.slots[slot]
  let freed := memory.releaseOwnedBy process.id
  { table := { table with
      slots := Slots.write table.slots slot Process.vacant
      live := table.live - 1
      current := if table.current = some slot then none else table.current }
    memory := freed.1
    released := freed.2
    wasRunning := process.isRunning }

def terminate (table : ProcessTable) (memory : Allocator)
    (id : ProcessId) : Except ProcessError Termination :=
  match table.slotOf? id with
  | none => .error .noSuchProcess
  | some slot => .ok (table.clearSlot memory slot)

/-- Takes the focus from whoever holds it. -/
def focus (table : ProcessTable) (id : ProcessId) :
    Except ProcessError ProcessTable :=
  match table.slotOf? id with
  | none => .error .noSuchProcess
  | some slot =>
      let unfocused : ProcessTable :=
        { table with slots := table.slots.map (·.setFocus false) }
      .ok (unfocused.update slot (·.setFocus true))

structure Delivery where
  table : ProcessTable
  receiver : ProcessId
  /-- The receiver lost its oldest event. -/
  overflowed : Bool

def deliver? (table : ProcessTable) (event : KeyEvent) : Option Delivery :=
  table.focusedSlot?.map fun slot =>
    let process := table.slots[slot]
    let (input, overflowed) := process.input.push event
    { table := table.update slot fun process =>
        { process with input := input }
      receiver := process.id
      overflowed := overflowed }

end ProcessTable

end Nucleus
