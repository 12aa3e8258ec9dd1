import Nucleus.Executive.Gateway

/-!
Traps.  The interrupted context is kept for whoever was running, the interrupt
or the call is dealt with, and the frame is left with the context that runs
next.  A fatal trap leaves the frame as it was.
-/

namespace Nucleus

structure Trap where
  exec : Executive
  frame : Frame
  effects : List Effect
  fatal : Option FatalReport

namespace Executive

/-- Makes those of the processes ready that are blocked. -/
def wakeAll (table : ProcessTable) :
    List ProcessId → ProcessTable × List ProcessId
  | [] => (table, [])
  | id :: rest =>
      match table.process? id with
      | some process =>
          if process.state = .blocked then
            let (table, woken) := wakeAll
              (table.updateProcess id fun process =>
                { process with state := .ready }) rest
            (table, id :: woken)
          else
            wakeAll table rest
      | none => wakeAll table rest

/-- Wakes every sleeper whose deadline has come, sets the comparator for the
next one, and counts those that woke. -/
def wakeSleepers (exec : Executive) (now : Nat) :
    Executive × Nat × List Effect :=
  let expired := exec.sleepers.drainExpired now
  let awake := wakeAll exec.table expired.1
  let command :=
    match expired.2.next? with
    | some deadline => Effect.armSleep deadline
    | none => Effect.disarmSleep
  ({ exec with table := awake.1, sleepers := expired.2 }, awake.2.length,
    awake.2.map (Journal.woke · now) ++ [command])

def dispatchInterrupt (exec : Executive) (readings : Readings)
    (interrupt : Nat) : Executive × List Effect :=
  match exec.router.route interrupt with
  | .tick =>
      let (exec, _, effects) := exec.reschedule
      (exec, .rearmTick :: .acknowledge interrupt :: effects)
  | .sleep =>
      let (exec, woke, effects) := exec.wakeSleepers readings.now
      let effects := effects ++ [.acknowledge interrupt]
      -- An idle processor would otherwise wait for the next quantum.
      if 0 < woke ∧ exec.table.current = none then
        let (exec, _, others) := exec.reschedule
        (exec, effects ++ others)
      else
        (exec, effects)
  | .input =>
      let (exec, effects) := exec.deliverAll readings.keys
      (exec, .acknowledge interrupt :: .drainInput :: effects)
  | .device line =>
      (exec, [.acknowledge interrupt,
        match exec.router.hook? line with
        | some hook => .call hook
        | none => Journal.hookMissing line interrupt])
  | .unknown interrupt' =>
      (exec, [Journal.interruptUnknown interrupt', .acknowledge interrupt])

/-- An interrupt trap.  Without a pending interrupt nothing happens. -/
def handleInterrupt (exec : Executive) (frame : Frame)
    (readings : Readings) : Trap :=
  let captured := exec.capture frame.context
  let (after, effects) :=
    match readings.pending with
    | some interrupt => captured.dispatchInterrupt readings interrupt
    | none => (captured, [])
  { exec := after
    frame := frame.resume after.nextContext
    effects := effects
    fatal := none }

def setResult (exec : Executive) (id : ProcessId) (value : UInt64) :
    Executive :=
  { exec with table := exec.table.updateProcess id fun process =>
      { process with context := process.context.setResult value } }

def settle (exec : Executive) (caller : ProcessId) :
    Flow → Executive × List Effect
  | .resume value => (exec.setResult caller value, [])
  | .giveWay value | .block value =>
      let (exec, _, effects) := (exec.setResult caller value).reschedule
      (exec, effects)
  | .exit => (exec, [])

/-- A synchronous exception: a system call of the current process, or a
reason to halt. -/
def handleSynchronous (exec : Executive) (frame : Frame)
    (readings : Readings) : Trap :=
  let halt (exec : Executive) (effects : List Effect) (kind : FatalKind) :
      Trap :=
    ⟨exec, frame, effects, some (FatalReport.ofFrame kind frame)⟩
  match exec.table.current with
  | none => halt exec [] .noCurrentProcess
  | some slot =>
      let captured := exec.capture frame.context
      let caller := exec.table.slots[slot].id
      match frame.syndrome.callNumber? with
      | none =>
          halt captured []
            (.unexpectedException frame.syndrome.exceptionClass)
      | some number =>
          let service :=
            captured.serve readings caller frame.context number
          match service.flow with
          | .error kind => halt service.exec service.effects kind
          | .ok flow =>
              let (after, effects) := service.exec.settle caller flow
              { exec := after
                frame := frame.resume after.nextContext
                effects := service.effects ++ effects
                fatal := none }

end Executive

end Nucleus
