import Nucleus.Proofs.Executive.Traps

/-!
Runs.  After boot the executive sees events in any order: what the kernel asks
of it, and traps.  Every one of them, refused or not, leaves it coherent and
its table settled.
-/

namespace Nucleus

inductive TrapCause
  | interrupt
  | synchronous
  deriving DecidableEq, Repr

structure Arrival where
  cause : TrapCause
  frame : Frame
  readings : Readings

/-- What a run does to the saved contexts: a process is given one to start
with, or the context of a process or of the idle loop is kept by a trap. -/
inductive Passage
  | born (id : ProcessId) (entry : UInt64) (mode : ProcessMode)
  | trapped (id : ProcessId) (context : Context) (answer : Option UInt64)
  | idled (context : Context)
  deriving DecidableEq, Repr

inductive Event
  | spawn (entry : UInt64) (stackSize : Nat) (mode : ProcessMode)
      (name : String)
  | install (line : DeviceLine) (hook : Hook)
  | focus (id : ProcessId)
  | deliver (key : KeyEvent)
  | start
  | terminate (id : ProcessId)
  | trap (arrival : Arrival)

namespace Executive

def enter (exec : Executive) (arrival : Arrival) : Trap :=
  match arrival.cause with
  | .interrupt => exec.handleInterrupt arrival.frame arrival.readings
  | .synchronous => exec.handleSynchronous arrival.frame arrival.readings

/-- The executive after an event; what it refuses leaves it as it was. -/
def step (exec : Executive) : Event → Executive
  | .spawn entry stackSize mode name =>
      (exec.spawn entry stackSize mode name).exec
  | .install line hook => (exec.install line hook).1
  | .focus id =>
      match exec.focus id with
      | .ok focused => focused
      | .error _ => exec
  | .deliver key => (exec.deliver key).1
  | .start => exec.start.1
  | .terminate id =>
      match exec.terminate id with
      | .ok (remaining, _) => remaining
      | .error _ => exec
  | .trap arrival => (exec.enter arrival).exec

def run (exec : Executive) (events : List Event) : Executive :=
  events.foldl step exec

def handsOut? (exec : Executive) : Event → Option ProcessId
  | .spawn entry stackSize mode name =>
      (exec.spawn entry stackSize mode name).outcome.toOption
  | _ => none

/-- What an event adds to the story.  A synchronous exception of the idle loop
is fatal, and nothing is kept. -/
def passage? (exec : Executive) : Event → Option Passage
  | .spawn entry stackSize mode name =>
      (exec.handsOut? (.spawn entry stackSize mode name)).map fun id =>
        .born id entry mode
  | .trap ⟨.interrupt, frame, _⟩ =>
      match exec.table.currentId? with
      | some id => some (.trapped id frame.context none)
      | none => some (.idled frame.context)
  | .trap ⟨.synchronous, frame, readings⟩ =>
      exec.table.currentId?.map fun id =>
        .trapped id frame.context (exec.answer? frame readings)
  | _ => none

def story (exec : Executive) : List Event → List Passage
  | [] => []
  | event :: rest =>
      (exec.step event).story rest ++ (exec.passage? event).toList

@[simp] theorem run_nil (exec : Executive) : exec.run [] = exec := rfl

@[simp] theorem run_cons (exec : Executive) (event : Event)
    (rest : List Event) :
    exec.run (event :: rest) = (exec.step event).run rest := rfl

theorem run_append (exec : Executive) (earlier later : List Event) :
    exec.run (earlier ++ later) = (exec.run earlier).run later :=
  List.foldl_append

variable {exec : Executive}

theorem step_focus (exec : Executive) (id : ProcessId) :
    exec.step (.focus id) = exec ∨
    ∃ after, exec.focus id = .ok after ∧ exec.step (.focus id) = after := by
  cases focused : exec.focus id with
  | error cause =>
      left
      simp only [step, focused]
  | ok after =>
      right
      refine ⟨after, rfl, ?_⟩
      simp only [step, focused]

theorem step_terminate (exec : Executive) (id : ProcessId) :
    (exec.table.slotOf? id = none ∧ exec.step (.terminate id) = exec) ∨
    ∃ after effects, exec.terminate id = .ok (after, effects) ∧
      exec.step (.terminate id) = after := by
  cases ended : exec.terminate id with
  | error cause =>
      left
      refine ⟨terminate_eq_error ended, ?_⟩
      simp only [step, ended]
  | ok outcome =>
      right
      refine ⟨outcome.1, outcome.2, rfl, ?_⟩
      simp only [step, ended]

inductive Outcome (exec : Executive) (event : Event) : Prop
  | spared (ending : Option ProcessId)
      (untold : exec.passage? event = none)
      (spares : Spares ending exec (exec.step event))
  | welcomed (id : ProcessId) (newcomer : Process) (entry : UInt64)
      (mode : ProcessMode) (created : exec.handsOut? event = some id)
      (told : exec.passage? event = some (.born id entry mode))
      (fresh : exec.Fresh entry mode newcomer)
      (welcomes : Welcomes id newcomer exec (exec.step event))
  | trapped (id : ProcessId) (context : Context) (answer : Option UInt64)
      (told : exec.passage? event = some (.trapped id context answer))
      (traps : Traps (some id) context answer exec (exec.step event))
  | idled (context : Context)
      (told : exec.passage? event = some (.idled context))
      (traps : Traps none context none exec (exec.step event))

theorem Coherent.outcome (coherent : exec.Coherent) (event : Event) :
    exec.Outcome event := by
  cases event with
  | spawn entry stackSize mode name =>
      rcases coherent.spawn_cases entry stackSize mode name with
        ⟨cause, refused, spares⟩ | ⟨id, newcomer, created, fresh, welcomes⟩
      · exact .spared none (by rw [passage?, handsOut?, refused]; rfl) spares
      · exact .welcomed id newcomer entry mode
          (by rw [handsOut?, created]; rfl)
          (by rw [passage?, handsOut?, created]; rfl) fresh welcomes
  | install line hook =>
      exact .spared none rfl
        (coherent.spares coherent.table rfl rfl rfl rfl)
  | focus id =>
      refine .spared none rfl ?_
      rcases step_focus exec id with same | ⟨after, focused, same⟩
      · rw [same]
        exact Spares.refl coherent
      · rw [same]
        exact coherent.spares_focus focused
  | deliver key => exact .spared none rfl (coherent.spares_deliver key)
  | start => exact .spared none rfl coherent.spares_reschedule
  | terminate id =>
      rcases step_terminate exec id with
        ⟨_, same⟩ | ⟨after, effects, ended, same⟩
      · refine .spared none rfl ?_
        rw [same]
        exact Spares.refl coherent
      · refine .spared (some id) rfl ?_
        rw [same]
        exact coherent.spares_terminate ended
  | trap arrival =>
      obtain ⟨cause, frame, readings⟩ := arrival
      cases running : exec.table.currentId? with
      | some id =>
          cases cause with
          | interrupt =>
              have traps := coherent.traps_handleInterrupt frame readings
              rw [running] at traps
              exact .trapped id frame.context none
                (by rw [passage?, running]) traps
          | synchronous =>
              exact .trapped id frame.context (exec.answer? frame readings)
                (by rw [passage?, running]; rfl)
                (coherent.traps_handleSynchronous frame readings running)
      | none =>
          cases cause with
          | interrupt =>
              have traps := coherent.traps_handleInterrupt frame readings
              rw [running] at traps
              exact .idled frame.context (by rw [passage?, running]) traps
          | synchronous =>
              refine .spared none (by rw [passage?, running]; rfl) ?_
              have same : exec.step (.trap ⟨.synchronous, frame, readings⟩) =
                  exec := exec_handleSynchronous_of_idle running frame readings
              rw [same]
              exact Spares.refl coherent

theorem Coherent.step (coherent : exec.Coherent) (event : Event) :
    (exec.step event).Coherent := by
  cases coherent.outcome event with
  | spared ending untold spares => exact spares.coherent
  | welcomed id newcomer entry mode created told fresh welcomes =>
      exact welcomes.coherent
  | trapped id context answer told traps => exact traps.coherent
  | idled context told traps => exact traps.coherent

theorem Coherent.settled_step (coherent : exec.Coherent)
    (settled : exec.table.Settled) (event : Event) :
    (exec.step event).table.Settled := by
  cases event with
  | spawn entry stackSize mode name =>
      exact coherent.table.settled_create settled _ _
  | install line hook => exact settled
  | focus id =>
      rcases step_focus exec id with same | ⟨after, focused, same⟩
      · rw [same]
        exact settled
      · rw [same]
        exact settled_focus settled focused
  | deliver key => exact settled.amend (amends_deliver exec key)
  | start => exact settled_reschedule exec
  | terminate id =>
      rcases step_terminate exec id with
        ⟨_, same⟩ | ⟨after, effects, ended, same⟩
      · rw [same]
        exact settled
      · rw [same]
        exact settled_terminate settled ended
  | trap arrival =>
      obtain ⟨cause, frame, readings⟩ := arrival
      cases cause with
      | interrupt =>
          exact coherent.settled_handleInterrupt settled frame readings
      | synchronous =>
          exact coherent.settled_handleSynchronous settled frame readings

theorem Coherent.run (coherent : exec.Coherent) (events : List Event) :
    (exec.run events).Coherent := by
  induction events generalizing exec with
  | nil => exact coherent
  | cons event rest ih => exact ih (coherent.step event)

theorem Coherent.settled_run (coherent : exec.Coherent)
    (settled : exec.table.Settled) (events : List Event) :
    (exec.run events).table.Settled := by
  induction events generalizing exec with
  | nil => exact settled
  | cons event rest ih =>
      exact ih (coherent.step event) (coherent.settled_step settled event)

theorem settled_boot (config : Configuration) :
    (boot config).table.Settled := by
  rw [table_boot]
  exact ProcessTable.settled_empty

end Executive

end Nucleus
