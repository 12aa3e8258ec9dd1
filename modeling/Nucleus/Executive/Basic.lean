import Nucleus.Executive.Journal
import Nucleus.Process.DeadlineQueue

/-!
The executive owns everything there is to know about the processes: their
table, their memory, who sleeps, what interrupts mean, and the context that
runs when no process can.
-/

namespace Nucleus

structure Executive where
  table : ProcessTable
  memory : Allocator
  sleepers : DeadlineQueue
  router : Router
  idle : Context
  exitLink : UInt64

structure Configuration where
  memoryBase : Nat
  memorySize : Nat
  lines : InterruptLines
  idle : Context
  /-- Where a process lands that returns from its entry. -/
  exitLink : UInt64

namespace Executive

def initial : Executive where
  table := ProcessTable.empty
  memory := Allocator.empty
  sleepers := DeadlineQueue.empty
  router := Router.ofLines InterruptLines.unassigned
  idle := Context.zero
  exitLink := 0

def configure (exec : Executive) (config : Configuration) :
    Except MemoryError (Executive × List Effect) :=
  match Allocator.ofWindow config.memoryBase config.memorySize with
  | .error error => .error error
  | .ok memory =>
      .ok ({ exec with
          memory := memory
          router := { exec.router with lines := config.lines }
          idle := config.idle
          exitLink := config.exitLink },
        [Journal.configured config.memoryBase config.memorySize
          memory.totalPages])

def install (exec : Executive) (line : DeviceLine) (hook : Hook) :
    Executive × List Effect :=
  ({ exec with router := exec.router.install line hook },
    [Journal.hookInstalled line])

/-- The context that runs next: the current process or the idle loop. -/
def nextContext (exec : Executive) : Context :=
  match exec.table.currentProcess? with
  | some process => process.context
  | none => exec.idle

/-- Keeps an interrupted context for whoever was running. -/
def capture (exec : Executive) (context : Context) : Executive :=
  match exec.table.current with
  | some slot =>
      { exec with table := exec.table.update slot fun process =>
          { process with context := context } }
  | none => { exec with idle := context }

structure Spawning where
  exec : Executive
  effects : List Effect
  outcome : Except ProcessError ProcessId

def spawn (exec : Executive) (entry : UInt64) (stackSize : Nat)
    (mode : ProcessMode) (name : String) : Spawning :=
  let request : SpawnRequest :=
    { entry := entry
      stackSize := stackSize
      mode := mode
      name := name
      exitLink := exec.exitLink }
  let created := exec.table.create exec.memory request
  { exec := { exec with table := created.table, memory := created.memory }
    effects := Effect.crashIf created.overflows ++
      match created.outcome with
      | .ok (_, slot) =>
          [Journal.created request slot created.table.slots[slot]]
      | .error (.noStack cause) => [Journal.stackRefused name cause]
      | .error _ => []
    outcome := created.outcome.map (·.1) }

def reschedule (exec : Executive) : Executive × Selection × List Effect :=
  let decision := exec.table.advance
  let effects :=
    match decision.2 with
    | .switched id =>
        decision.1.current.toList.map (Journal.switched id)
    | .kept _ => []
    | .idle => if exec.table.current.isSome then [Journal.idling] else []
  ({ exec with table := decision.1 }, decision.2, effects)

/-- Stops a process and gives back everything it owns.  If it was running,
another context is chosen at once, so that it is never resumed. -/
def terminate (exec : Executive) (id : ProcessId) :
    Except ProcessError (Executive × List Effect) :=
  match exec.table.terminate exec.memory id with
  | .error error => .error error
  | .ok ended =>
      let remaining : Executive :=
        { exec with
          table := ended.table
          memory := ended.memory
          sleepers := exec.sleepers.erase id }
      let reports := Journal.terminated id ended.released
      if ended.wasRunning then
        let (next, selection, effects) := remaining.reschedule
        .ok (next, reports ++ effects ++ [Journal.succeeded id selection])
      else
        .ok (remaining, reports)

def focus (exec : Executive) (id : ProcessId) :
    Except ProcessError Executive :=
  (exec.table.focus id).map fun table => { exec with table := table }

/-- Hands a key event to the focused process; without one it is lost. -/
def deliver (exec : Executive) (event : KeyEvent) :
    Executive × List Effect :=
  match exec.table.deliver? event with
  | none => (exec, [Journal.inputDropped])
  | some delivery =>
      ({ exec with table := delivery.table },
        if delivery.overflowed then
          [Journal.inputOverflowed delivery.receiver]
        else [])

def deliverAll (exec : Executive) : List KeyEvent → Executive × List Effect
  | [] => (exec, [])
  | event :: rest =>
      let (exec, first) := exec.deliver event
      let (exec, others) := exec.deliverAll rest
      (exec, first ++ others)

def start (exec : Executive) : Executive × List Effect :=
  let (started, selection, effects) := exec.reschedule
  (started, effects ++
    [Journal.starting started.table.live selection, .rearmTick])

end Executive

end Nucleus
