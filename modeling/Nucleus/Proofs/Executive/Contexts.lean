import Nucleus.Proofs.Executive.Run

/-!
The integrity of contexts.  When a trap ends, whoever runs next goes on exactly
where it was interrupted last, with the answer to its call if it made one; a
process that has not run yet starts at its entry on top of its stack.
-/

namespace Nucleus

namespace Passage

/-- The process that the passage is about, unless it is the idle loop. -/
def subject : Passage → Option ProcessId
  | born id _ _ | trapped id _ _ => some id
  | idled _ => none

def Leaves (link : UInt64) (stackTop : Nat) (context : Context) :
    Passage → Prop
  | born _ entry mode =>
      context = Context.start entry (UInt64.ofNat stackTop)
        mode.processorState.raw link
  | trapped _ kept answer => context = kept.answered answer
  | idled kept => context = kept

def last? (story : List Passage) (holder : Option ProcessId) :
    Option Passage :=
  story.find? fun passage => passage.subject = holder

theorem last?_cons_self (passage : Passage) (story : List Passage) :
    last? (passage :: story) passage.subject = some passage :=
  List.find?_cons_of_pos (decide_eq_true rfl)

theorem last?_cons_of_ne {passage : Passage} {holder : Option ProcessId}
    (other : passage.subject ≠ holder) (story : List Passage) :
    last? (passage :: story) holder = last? story holder :=
  List.find?_cons_of_neg fun same => other (of_decide_eq_true same)

end Passage

namespace Executive

open Passage (last?)

/-- Every saved context is the one that the story leaves. -/
structure Remembers (link : UInt64) (idle : Context) (story : List Passage)
    (exec : Executive) : Prop where
  exitLink : exec.exitLink = link
  process : ∀ id process, exec.table.estate? id = some process →
    ∃ passage, last? story (some id) = some passage ∧
      passage.Leaves link process.stackTop process.context
  idle : (∃ context, last? story none = some (.idled context) ∧
      exec.idle = context) ∨
    (last? story none = none ∧ exec.idle = idle)

variable {exec : Executive} {link : UInt64} {idle : Context}
  {story : List Passage}

theorem Remembers.step (coherent : exec.Coherent)
    (remembers : Remembers link idle story exec) (event : Event) :
    Remembers link idle ((exec.passage? event).toList ++ story)
      (exec.step event) := by
  cases coherent.outcome event with
  | spared ending untold spares =>
      rw [untold, Option.toList_none, List.nil_append]
      refine ⟨spares.exitLink.trans remembers.exitLink, ?_, ?_⟩
      · intro id process found
        rw [spares.estate?] at found
        split at found
        · cases found
        · exact remembers.process id process found
      · rw [spares.idle]
        exact remembers.idle
  | welcomed newId newcomer entry mode created told fresh welcomes =>
      rw [told]
      refine ⟨welcomes.exitLink.trans remembers.exitLink, ?_, ?_⟩
      · intro id process found
        rw [ProcessTable.estate?, welcomes.process?] at found
        by_cases here : newId = id
        · rw [if_pos here.symm] at found
          obtain rfl := Option.some.inj found
          rw [← here, ← remembers.exitLink]
          exact ⟨_, Passage.last?_cons_self (.born newId entry mode) story,
            fresh.context_eq⟩
        · rw [if_neg (Ne.symm here)] at found
          have away : (Passage.born newId entry mode).subject ≠ some id :=
            fun same => here (Option.some.inj same)
          obtain ⟨passage, last, leaves⟩ :=
            remembers.process id process found
          exact ⟨passage, (Passage.last?_cons_of_ne away story).trans last,
            leaves⟩
      · rw [welcomes.idle]
        exact remembers.idle
  | trapped caller context answer told traps =>
      rw [told]
      refine ⟨traps.exitLink.trans remembers.exitLink, ?_, ?_⟩
      · intro id process found
        by_cases here : some caller = some id
        · obtain ⟨old, _, rfl⟩ := traps.own id process here found
          rw [← here]
          exact ⟨_, Passage.last?_cons_self (.trapped caller context answer)
            story, rfl⟩
        · rw [traps.others id here] at found
          have away :
              (Passage.trapped caller context answer).subject ≠ some id := here
          obtain ⟨passage, last, leaves⟩ :=
            remembers.process id process found
          exact ⟨passage, (Passage.last?_cons_of_ne away story).trans last,
            leaves⟩
      · rw [traps.idle, if_neg (Option.some_ne_none caller)]
        exact remembers.idle
  | idled context told traps =>
      rw [told]
      refine ⟨traps.exitLink.trans remembers.exitLink, ?_, ?_⟩
      · intro id process found
        rw [traps.others id (Option.some_ne_none id).symm] at found
        exact remembers.process id process found
      · left
        exact ⟨context, rfl, traps.idle⟩

theorem Remembers.run (coherent : exec.Coherent)
    (remembers : Remembers link idle story exec) (events : List Event) :
    Remembers link idle (exec.story events ++ story) (exec.run events) := by
  induction events generalizing exec story with
  | nil => exact remembers
  | cons event rest ih =>
      have stepped := ih (coherent.step event) (remembers.step coherent event)
      rw [← List.append_assoc] at stepped
      exact stepped

theorem remembers_boot (config : Configuration) :
    Remembers (boot config).exitLink (boot config).idle [] (boot config) := by
  refine ⟨rfl, ?_, Or.inr ⟨rfl, rfl⟩⟩
  intro id process found
  rw [table_boot, ProcessTable.estate?, ProcessTable.process?_empty] at found
  cases found

/-- The frame of a trap holds what the story leaves to whoever runs next. -/
structure Resumes (config : Configuration) (story : List Passage)
    (trap : Trap) : Prop where
  process : ∀ id, trap.exec.table.currentId? = some id →
    ∃ process passage, trap.exec.table.process? id = some process ∧
      last? story (some id) = some passage ∧
      passage.Leaves config.exitLink process.stackTop trap.frame.context
  idle : trap.exec.table.currentId? = none →
    (∃ context, last? story none = some (.idled context) ∧
      trap.frame.context = context) ∨
    (last? story none = none ∧ trap.frame.context = config.idle)

/-- A trap that returns leaves the frame to whoever runs next. -/
theorem frame_enter {arrival : Arrival}
    (returns : (exec.enter arrival).fatal = none) :
    (exec.enter arrival).frame.context =
      (exec.enter arrival).exec.nextContext := by
  obtain ⟨cause, frame, readings⟩ := arrival
  cases cause with
  | interrupt => rfl
  | synchronous =>
      rcases handleSynchronous_cases exec frame readings with
        ⟨_, _, halts, _⟩ | ⟨_, _, _, _, halts, _⟩ | ⟨_, _, _, _, ends⟩
      · exact absurd returns halts
      · exact absurd returns halts
      · rcases ends with ⟨_, _, _, halts, _⟩ | ⟨_, _, _, resumed, _⟩
        · exact absurd returns halts
        · exact congrArg Frame.context resumed

theorem Remembers.resumes {config : Configuration} {trap : Trap}
    (coherent : trap.exec.Coherent)
    (remembers : Remembers config.exitLink config.idle story trap.exec)
    (left : trap.frame.context = trap.exec.nextContext) :
    Resumes config story trap := by
  constructor
  · intro id running
    obtain ⟨process, found, next⟩ := coherent.nextContext_of_running running
    have estate : trap.exec.table.estate? id = some process.estate := by
      rw [ProcessTable.estate?, found]
      rfl
    obtain ⟨passage, last, leaves⟩ :=
      remembers.process id process.estate estate
    refine ⟨process, passage, found, last, ?_⟩
    rw [left, next]
    exact leaves
  · intro idling
    rw [left, nextContext_of_idle idling]
    exact remembers.idle

def saved? (exec : Executive) (id : ProcessId) : Option Context :=
  (exec.table.process? id).map (·.context)

theorem saved?_eq_estate? (exec : Executive) (id : ProcessId) :
    exec.saved? id = (exec.table.estate? id).map (·.context) := by
  rw [saved?, ProcessTable.estate?, Option.map_map]
  rfl

theorem Coherent.saved?_enter (coherent : exec.Coherent) (arrival : Arrival)
    {id : ProcessId} (elsewhere : exec.table.currentId? ≠ some id) :
    (exec.enter arrival).exec.saved? id = exec.saved? id := by
  rw [saved?_eq_estate?, saved?_eq_estate?]
  obtain ⟨cause, frame, readings⟩ := arrival
  cases cause with
  | interrupt =>
      have traps := coherent.traps_handleInterrupt frame readings
      exact congrArg _ (traps.others id elsewhere)
  | synchronous =>
      cases running : exec.table.currentId? with
      | none =>
          have same := exec_handleSynchronous_of_idle running frame readings
          rw [enter, same]
      | some caller =>
          rw [running] at elsewhere
          have traps :=
            coherent.traps_handleSynchronous frame readings running
          exact congrArg _ (traps.others id elsewhere)

theorem Coherent.idle_enter (coherent : exec.Coherent) (arrival : Arrival)
    (busy : exec.table.currentId? ≠ none) :
    (exec.enter arrival).exec.idle = exec.idle := by
  obtain ⟨cause, frame, readings⟩ := arrival
  cases cause with
  | interrupt =>
      have traps := coherent.traps_handleInterrupt frame readings
      exact traps.idle.trans (if_neg busy)
  | synchronous =>
      obtain ⟨caller, running⟩ := Option.ne_none_iff_exists'.mp busy
      have traps := coherent.traps_handleSynchronous frame readings running
      exact traps.idle.trans (if_neg (Option.some_ne_none caller))

/-- Contexts survive every run.  A trap that returns leaves its frame with the
context that whoever runs next was interrupted with last, answered if it made a
call, and with a fresh one if it has not run yet; a trap changes the saved
context of nobody but the one it interrupts. -/
theorem contexts_kept {config : Configuration} {booted : Executive}
    {effects : List Effect}
    (accepted : initial.configure config = .ok (booted, effects))
    (events : List Event) (arrival : Arrival)
    (returns : ((booted.run events).enter arrival).fatal = none) :
    Resumes config (booted.story (events ++ [.trap arrival]))
      ((booted.run events).enter arrival) ∧
    (∀ id, (booted.run events).table.currentId? ≠ some id →
      ((booted.run events).enter arrival).exec.saved? id =
        (booted.run events).saved? id) ∧
    ((booted.run events).table.currentId? ≠ none →
      ((booted.run events).enter arrival).exec.idle =
        (booted.run events).idle) := by
  obtain ⟨rfl, idle, exitLink⟩ := boot_of_accepted accepted
  have coherent := (coherent_boot config).run events
  refine ⟨?_, fun id => coherent.saved?_enter arrival,
    coherent.idle_enter arrival⟩
  have remembers := (remembers_boot config).run (coherent_boot config)
    (events ++ [.trap arrival])
  rw [idle, exitLink, List.append_nil, run_append] at remembers
  exact remembers.resumes (coherent.step (.trap arrival)) (frame_enter returns)

/-! A round trip: the first of two processes gives way in the middle of its
work, and the tick that interrupts the second returns to it. -/

namespace RoundTrip

def config : Configuration where
  memoryBase := 0x48000000
  memorySize := 4 * pageSize
  lines := InterruptLines.ofNumbers 30 27 33 48 49 50 35
  idle := Context.zero
  exitLink := 0x40000200

def readings (pending : Option Nat) : Readings where
  pending := pending
  now := 0
  keys := []
  screenSize := (0, 0)
  charSize := TextScale.cell
  memory := UserMemory.zeroed 0 0

def working : Context where
  registers := Vector.ofFn fun index => UInt64.ofNat (index.val + 7)
  stackPointer := 0x48000f00
  programCounter := 0x1234
  processorState := 0

def events : List Event :=
  [.spawn 0x1000 pageSize .user "first",
    .spawn 0x2000 pageSize .user "second", .start,
    .trap ⟨.synchronous, ⟨working, Syndrome.ofCall Syscall.yield.number, 0⟩,
      readings none⟩]

def tick : Arrival where
  cause := .interrupt
  frame := Frame.ofContext Context.zero
  readings := readings (some 30)

end RoundTrip

theorem contexts_kept_round_trip :
    ∃ booted effects,
      initial.configure RoundTrip.config = .ok (booted, effects) ∧
      ((booted.run RoundTrip.events).enter RoundTrip.tick).fatal = none ∧
      Resumes RoundTrip.config
        (booted.story (RoundTrip.events ++ [.trap RoundTrip.tick]))
        ((booted.run RoundTrip.events).enter RoundTrip.tick) ∧
      ((booted.run RoundTrip.events).enter
        RoundTrip.tick).exec.table.currentId? = some ⟨1⟩ ∧
      ((booted.run RoundTrip.events).enter RoundTrip.tick).frame.context =
        RoundTrip.working.setResult 0 := by
  refine ⟨_, _, rfl, rfl,
    (contexts_kept rfl RoundTrip.events RoundTrip.tick rfl).1, ?_, ?_⟩
  · decide +kernel
  · decide +kernel

end Executive

end Nucleus
