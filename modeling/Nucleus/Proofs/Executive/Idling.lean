import Nucleus.Proofs.Executive.Service
import Nucleus.Proofs.Executive.Sleep
import Nucleus.Proofs.Process.Rounds

namespace Nucleus

def Event.isSpawn : Event → Bool
  | .spawn _ _ _ _ => true
  | _ => false

namespace ProcessTable

variable {table after before : ProcessTable}

/-- Nobody who is ready waits for a processor that idles. -/
def Diligent (table : ProcessTable) : Prop :=
  table.current = none → ∀ slot : Fin 16, table.slots[slot].state ≠ .ready

theorem diligent_of_busy (busy : table.current ≠ none) : table.Diligent :=
  fun idle => absurd idle busy

theorem Diligent.mono (diligent : before.Diligent)
    (idle : after.current = none → before.current = none)
    (ready : ∀ slot : Fin 16, after.slots[slot].state = .ready →
      before.slots[slot].state = .ready) : after.Diligent :=
  fun unused slot waits => diligent (idle unused) slot (ready slot waits)

theorem Diligent.amend (diligent : before.Diligent)
    (amends : Amends after before) : after.Diligent := by
  refine diligent.mono ?_ ?_
  · rw [amends.current]
    exact id
  · intro slot
    rw [amends.state]
    exact id

theorem Diligent.focusOn (diligent : table.Diligent) (slot : Fin 16) :
    (table.focusOn slot).Diligent := by
  refine diligent.mono id ?_
  intro other
  rw [slots_focusOn]
  exact id

theorem WellFormed.diligent_advance (wellFormed : table.WellFormed) :
    table.advance.1.Diligent := by
  cases found : table.nextReady? with
  | some next =>
      rw [advance_of_some found]
      exact diligent_of_busy (Option.some_ne_none next)
  | none =>
      obtain ⟨current, same⟩ := advance_of_none found
      rw [same]
      intro _ slot
      exact not_ready_of_nextReady? wellFormed found slot

theorem Diligent.clearSlot (diligent : table.Diligent)
    (settled : table.Settled) (memory : Allocator) {slot : Fin 16}
    (stands : table.slots[slot].isRunning = false) :
    (table.clearSlot memory slot).table.Diligent := by
  have elsewhere : table.current ≠ some slot := by
    intro pointed
    rw [settled slot pointed] at stands
    cases stands
  refine diligent.mono ?_ ?_
  · exact fun unused => (if_neg elsewhere).symm.trans unused
  · intro other waits
    rw [slots_clearSlot] at waits
    split at waits
    · cases waits
    · exact waits

end ProcessTable

namespace Executive

variable {exec after : Executive} {id : ProcessId}

theorem Coherent.diligent_reschedule (coherent : exec.Coherent) :
    exec.reschedule.1.table.Diligent :=
  coherent.table.diligent_advance

theorem Coherent.diligent_terminate (coherent : exec.Coherent)
    (settled : exec.table.Settled) (diligent : exec.table.Diligent)
    {effects : List Effect}
    (ended : exec.terminate id = .ok (after, effects)) :
    after.table.Diligent := by
  obtain ⟨slot, found, ⟨_, rfl⟩ | ⟨stands, rfl⟩⟩ := exec_of_terminate ended
  · exact (coherent.spares_withdraw found).coherent.diligent_reschedule
  · exact diligent.clearSlot settled exec.memory stands

theorem wakeAll_of_nobody {table : ProcessTable} {ids : List ProcessId}
    (nobody : (wakeAll table ids).2 = []) : (wakeAll table ids).1 = table := by
  induction ids with
  | nil => rfl
  | cons first rest ih =>
      by_cases asleep : table.Sleeps first
      · rw [wakeAll_of_sleeps asleep] at nobody
        cases nobody
      · rw [wakeAll_of_awake asleep] at nobody ⊢
        exact ih nobody

theorem Coherent.diligent_dispatchInterrupt (coherent : exec.Coherent)
    (diligent : exec.table.Diligent) (readings : Readings)
    (interrupt : Nat) :
    (exec.dispatchInterrupt readings interrupt).1.table.Diligent := by
  unfold dispatchInterrupt
  split
  · exact coherent.diligent_reschedule
  · dsimp only
    split
    · have woken := coherent.spares_wakeSleepers readings.now
      exact woken.coherent.diligent_reschedule
    · -- Without a decision, whoever wakes finds a process running.
      rename_i calm
      by_cases idle : (exec.wakeSleepers readings.now).1.table.current = none
      · have nobody := fun woke => calm ⟨woke, idle⟩
        have unchanged : (exec.wakeSleepers readings.now).1.table =
            exec.table :=
          wakeAll_of_nobody (List.eq_nil_of_length_eq_zero
            (Nat.eq_zero_of_not_pos nobody))
        rw [unchanged]
        exact diligent
      · exact ProcessTable.diligent_of_busy idle
  · exact diligent.amend (amends_deliverAll exec readings.keys)
  · exact diligent
  · exact diligent

theorem Coherent.diligent_handleInterrupt (coherent : exec.Coherent)
    (diligent : exec.table.Diligent) (frame : Frame) (readings : Readings) :
    (exec.handleInterrupt frame readings).exec.table.Diligent := by
  have captured := diligent.amend (amends_capture coherent frame.context)
  rw [exec_handleInterrupt]
  split
  · exact (coherent.capture frame.context).diligent_dispatchInterrupt captured
      readings _
  · exact captured

theorem Coherent.diligent_settle (coherent : exec.Coherent)
    (diligent : exec.table.Diligent) (caller : ProcessId) (flow : Flow) :
    (exec.settle caller flow).1.table.Diligent := by
  have rewrites := rewrites_setResult exec caller
  cases flow with
  | resume value => exact diligent.amend (rewrites value).amends
  | giveWay value | block value =>
      exact (coherent.of_rewrites (rewrites value) rfl).diligent_reschedule
  | exit => exact diligent

/-- A call leaves the processor with the caller, or ends it. -/
theorem Coherent.diligent_served (coherent : exec.Coherent)
    (settled : exec.table.Settled) (busy : exec.table.current ≠ none)
    {caller : ProcessId} {flow : Except FatalKind Flow}
    (served : exec.Served caller after flow) : after.table.Diligent := by
  rcases served.current_or_ended with same | ⟨reports, ended⟩
  · rw [← same] at busy
    exact ProcessTable.diligent_of_busy busy
  · exact coherent.diligent_terminate settled
      (ProcessTable.diligent_of_busy busy) ended

theorem Coherent.diligent_handleSynchronous (coherent : exec.Coherent)
    (settled : exec.table.Settled) (diligent : exec.table.Diligent)
    (frame : Frame) (readings : Readings) :
    (exec.handleSynchronous frame readings).exec.table.Diligent := by
  have captured := coherent.capture frame.context
  have amends := amends_capture coherent frame.context
  rcases handleSynchronous_cases exec frame readings with
    ⟨_, same, _⟩ | ⟨_, _, _, same, _⟩ | ⟨caller, service, _, called, ends⟩
  · rw [same]
    exact diligent
  · rw [same]
    exact diligent.amend amends
  · have upholds := (coherent.upholds_callOf? called).2
    obtain ⟨running, number, _, rfl⟩ := callOf?_eq_some called
    have busy : (exec.capture frame.context).table.current ≠ none := by
      rw [amends.current, ne_eq, ← ProcessTable.currentId?_eq_none_iff,
        running]
      exact Option.some_ne_none caller
    have served := captured.diligent_served (settled.amend amends) busy
      (served_serve _ readings caller frame.context number)
    rcases ends with ⟨kind, fails, same, _⟩ | ⟨flow, flows, same, _⟩
    · rw [same]
      exact served
    · rw [same]
      exact upholds.spares.coherent.diligent_settle served caller flow

theorem Coherent.diligent_step (coherent : exec.Coherent)
    (settled : exec.table.Settled) (diligent : exec.table.Diligent)
    {event : Event} (known : event.isSpawn = false) :
    (exec.step event).table.Diligent := by
  cases event with
  | spawn entry stackSize mode name => cases known
  | install line hook => exact diligent
  | focus id =>
      rcases step_focus exec id with same | ⟨focused, accepted, same⟩
      · rw [same]
        exact diligent
      · obtain ⟨slot, _, rfl⟩ := focus_eq_ok accepted
        rw [same]
        exact diligent.focusOn slot
  | deliver key => exact diligent.amend (amends_deliver exec key)
  | start => exact coherent.diligent_reschedule
  | terminate id =>
      rcases step_terminate exec id with
        ⟨_, same⟩ | ⟨remaining, effects, ended, same⟩
      · rw [same]
        exact diligent
      · rw [same]
        exact coherent.diligent_terminate settled diligent ended
  | trap arrival =>
      obtain ⟨cause, frame, readings⟩ := arrival
      cases cause with
      | interrupt =>
          exact coherent.diligent_handleInterrupt diligent frame readings
      | synchronous =>
          exact coherent.diligent_handleSynchronous settled diligent frame
            readings

theorem Coherent.diligent_run (coherent : exec.Coherent)
    (settled : exec.table.Settled) (diligent : exec.table.Diligent)
    {events : List Event}
    (known : ∀ event ∈ events, event.isSpawn = false) :
    (exec.run events).table.Diligent := by
  induction events generalizing exec with
  | nil => exact diligent
  | cons event rest ih =>
      rw [List.forall_mem_cons] at known
      exact ih (coherent.step event) (coherent.settled_step settled event)
        (coherent.diligent_step settled diligent known.1) known.2

/-- In every state after the start, if no process has been created since then
an idle processor means that nobody is ready. -/
theorem idle_means_nobody_ready (config : Configuration)
    (earlier later : List Event)
    (known : ∀ event ∈ later, event.isSpawn = false)
    (idle : ((boot config).run
      (earlier ++ .start :: later)).table.current = none)
    (slot : Fin 16) :
    ((boot config).run
      (earlier ++ .start :: later)).table.slots[slot].state ≠ .ready := by
  have coherent := (coherent_boot config).run earlier
  have settled :=
    (coherent_boot config).settled_run (settled_boot config) earlier
  rw [run_append, run_cons] at idle ⊢
  have started : (((boot config).run earlier).step .start).table.Diligent :=
    coherent.diligent_reschedule
  exact (coherent.step .start).diligent_run
    (coherent.settled_step settled .start) started known idle slot

/-! Two processes sleep, and the first is woken while the processor idles; it
runs at once, and stops while the second sleeps on. -/

namespace WokenWhileIdle

def config : Configuration where
  memoryBase := 0x48000000
  memorySize := 4 * pageSize
  lines := InterruptLines.ofNumbers 30 27 33 48 49 50 35
  idle := Context.zero
  exitLink := 0

def readings (pending : Option Nat) (now : Nat) : Readings where
  pending := pending
  now := now
  keys := []
  screenSize := (0, 0)
  charSize := TextScale.cell
  memory := UserMemory.zeroed 0 0

def call (call : Syscall) (arguments : List UInt64) : Event :=
  .trap
    { cause := .synchronous
      frame := ⟨Context.zero.setArguments arguments,
        Syndrome.ofCall call.number, 0⟩
      readings := readings none 0 }

def earlier : List Event :=
  [.spawn 0x1000 pageSize .user "first",
    .spawn 0x2000 pageSize .user "second"]

def later : List Event :=
  [call .sleep [10], call .sleep [100],
    .trap ⟨.interrupt, Frame.zero, readings (some 27) 10⟩, call .stop []]

end WokenWhileIdle

open WokenWhileIdle in
theorem idle_means_nobody_ready_woken :
    ((boot config).run (earlier ++ .start :: later.take 3)).table.currentId? =
        some ⟨1⟩ ∧
      ((boot config).run (earlier ++ .start :: later)).table.state? ⟨2⟩ =
        some .blocked ∧
      ((boot config).run (earlier ++ .start :: later)).table.current = none ∧
      ((boot config).run
        (earlier ++ .start :: later)).table.slots[(1 : Fin 16)].state ≠
          .ready := by
  have idle : ((boot config).run
      (earlier ++ .start :: later)).table.current = none := by
    decide +kernel
  refine ⟨?_, ?_, idle,
    idle_means_nobody_ready config earlier later (by decide) idle 1⟩
  · decide +kernel
  · decide +kernel

end Executive

end Nucleus
