import Nucleus.Proofs.Executive.Rest
import Nucleus.Proofs.Executive.Standing

/-!
Falling asleep and waking.  An event lets everybody rest, ends one process,
sends the caller to sleep, or rouses all who are due.  Each of these keeps the
deadline queue and the blocked processes attuned.
-/

namespace Nucleus

namespace Executive

variable {exec after : Executive} {id caller : ProcessId}
  {reports : List Effect}

def awaken (table : ProcessTable) (id : ProcessId) : ProcessTable :=
  table.updateProcess id fun process => { process with state := .ready }

theorem state?_awaken {table : ProcessTable} (asleep : table.Sleeps id)
    (other : ProcessId) :
    (awaken table id).state? other =
      if other = id then some .ready else table.state? other := by
  rw [awaken, ProcessTable.state?_updateState table id (by decide), asleep,
    Option.map_some]

theorem sleeps_awaken {table : ProcessTable} (asleep : table.Sleeps id)
    (other : ProcessId) :
    (awaken table id).Sleeps other ↔ other ≠ id ∧ table.Sleeps other := by
  rw [ProcessTable.Sleeps, state?_awaken asleep]
  by_cases here : other = id <;> simp [here, ProcessTable.Sleeps]

theorem wakeAll_of_sleeps {table : ProcessTable} (asleep : table.Sleeps id)
    (rest : List ProcessId) :
    wakeAll table (id :: rest) =
      ((wakeAll (awaken table id) rest).1,
        id :: (wakeAll (awaken table id) rest).2) := by
  rw [ProcessTable.Sleeps, ProcessTable.state?,
    Option.map_eq_some_iff] at asleep
  obtain ⟨process, found, blocked⟩ := asleep
  rw [wakeAll, found]
  exact if_pos blocked

theorem wakeAll_of_awake {table : ProcessTable} (awake : ¬ table.Sleeps id)
    (rest : List ProcessId) :
    wakeAll table (id :: rest) = wakeAll table rest := by
  rw [ProcessTable.Sleeps, ProcessTable.state?] at awake
  rw [wakeAll]
  cases found : table.process? id with
  | none => rfl
  | some process =>
      refine if_neg fun blocked => awake ?_
      rw [found, Option.map_some, blocked]

theorem state?_wakeAll (table : ProcessTable) (ids : List ProcessId)
    (id : ProcessId) :
    (wakeAll table ids).1.state? id =
      if id ∈ ids ∧ table.Sleeps id then some .ready
      else table.state? id := by
  induction ids generalizing table with
  | nil => simp [wakeAll]
  | cons first rest ih =>
      by_cases asleep : table.Sleeps first
      · rw [wakeAll_of_sleeps asleep, ih]
        by_cases here : id = first
        · simp [here, asleep, sleeps_awaken, state?_awaken]
        · simp [here, asleep, sleeps_awaken, state?_awaken]
      · rw [wakeAll_of_awake asleep, ih]
        by_cases here : id = first
        · simp [here, asleep]
        · simp [here]

theorem sleeps_wakeAll (table : ProcessTable) (ids : List ProcessId)
    (id : ProcessId) :
    (wakeAll table ids).1.Sleeps id ↔ table.Sleeps id ∧ id ∉ ids := by
  rw [ProcessTable.Sleeps, state?_wakeAll]
  split
  · rename_i woken
    simp [woken.1]
  · rename_i stays
    exact ⟨fun asleep => ⟨asleep, fun member => stays ⟨member, asleep⟩⟩,
      And.left⟩

/-- Sleepers that are named once wake once. -/
theorem woken_wakeAll {table : ProcessTable} {ids : List ProcessId}
    (distinct : ids.Nodup) (asleep : ∀ id ∈ ids, table.Sleeps id) :
    (wakeAll table ids).2 = ids := by
  induction ids generalizing table with
  | nil => rfl
  | cons first rest ih =>
      obtain ⟨fresh, distinct⟩ := List.nodup_cons.mp distinct
      have firstAsleep := asleep first List.mem_cons_self
      have others : ∀ id ∈ rest, (awaken table first).Sleeps id := by
        intro id member
        have away : id ≠ first := by
          rintro rfl
          exact fresh member
        rw [sleeps_awaken firstAsleep]
        exact ⟨away, asleep id (List.mem_cons_of_mem first member)⟩
      rw [wakeAll_of_sleeps firstAsleep, ih distinct others]

theorem dormitory_wakeSleepers (exec : Executive) (now : Nat) :
    (exec.wakeSleepers now).1.dormitory = exec.dormitory.roused now := by
  rw [dormitory, Dormitory.roused]
  exact congrArg _ (Set.ext (sleeps_wakeAll exec.table _))

theorem comparatorCommands_wakeSleepers (exec : Executive) (now : Nat) :
    comparatorCommands (exec.wakeSleepers now).2.2 =
      [(exec.wakeSleepers now).1.sleepers.command] := by
  rw [← comparatorCommands_commands, commands_wakeSleepers]
  unfold DeadlineQueue.command
  cases (exec.wakeSleepers now).1.sleepers.next? <;> rfl

theorem Coherent.dormitory_terminate (coherent : exec.Coherent)
    (ended : exec.terminate id = .ok (after, reports)) :
    after.dormitory = exec.dormitory.without id := by
  obtain ⟨slot, found, outcome⟩ := terminate_eq_ok ended
  obtain ⟨live, rfl⟩ := ProcessTable.live_of_slotOf? found
  have withdrawn :
      (exec.withdraw exec.table.slots[slot].id slot).dormitory =
        exec.dormitory.without exec.table.slots[slot].id := by
    refine congrArg (Dormitory.mk _) (Set.ext fun other => ?_)
    exact (coherent.table.sleeps_clearSlot exec.memory live other).trans
      And.comm
  rcases outcome with rfl | rfl
  · exact withdrawn
  · exact (rests_reschedule _).dormitory.trans withdrawn

theorem dormitory_sleep (live : exec.table.process? caller ≠ none)
    {now duration : Nat} (long : 0 < duration) {queue : DeadlineQueue}
    (inserted : exec.sleepers.insert? caller
      (min (now + duration) maxWord) = some queue) :
    (exec.sleep caller now duration).exec.dormitory =
        ⟨queue, insert caller exec.dormitory.asleep⟩ ∧
      comparatorCommands (exec.sleep caller now duration).effects =
        queue.next?.toList.map .armSleep := by
  rw [sleep, if_neg (Nat.ne_of_gt long)]
  dsimp only
  rw [inserted]
  constructor
  · exact congrArg (Dormitory.mk queue)
      (Set.ext (ProcessTable.sleeps_block live))
  · dsimp only
    rw [comparatorCommands_append]
    cases queue.next? <;> rfl

/-- The executive's tables are sound and agree about who sleeps. -/
structure Attentive (exec : Executive) : Prop where
  coherent : exec.Coherent
  settled : exec.table.Settled
  attuned : exec.dormitory.Attuned

theorem Attentive.awake_of_running (attentive : exec.Attentive)
    (running : exec.table.currentId? = some caller) :
    ¬ exec.table.Sleeps caller := by
  obtain ⟨slot, current, rfl⟩ :=
    ProcessTable.currentId?_eq_some_iff.mp running
  have live := attentive.coherent.table.current_live slot current
  have runs := beq_iff_eq.mp (attentive.settled slot current)
  rw [ProcessTable.Sleeps,
    attentive.coherent.table.state?_of_live live, runs]
  decide

def blockedSlots (exec : Executive) : List (Fin 16) :=
  Slots.all exec.table.slots fun process => process.state == .blocked

theorem Attentive.queued_le (attentive : exec.Attentive) :
    exec.sleepers.length ≤ exec.blockedSlots.length := by
  have named : exec.sleepers.ids ⊆
      exec.blockedSlots.map fun slot => exec.table.slots[slot].id := by
    intro id queued
    have asleep : exec.table.Sleeps id :=
      (attentive.attuned.mem_ids_iff id).mp queued
    obtain ⟨slot, found, blocked⟩ := ProcessTable.state?_eq_some asleep
    rw [← (ProcessTable.live_of_slotOf? found).2]
    exact List.mem_map_of_mem (Slots.mem_all.mpr (beq_iff_eq.mpr blocked))
  have fewer :=
    (List.subperm_of_subset attentive.attuned.sound.distinct named).length_le
  rw [List.length_map] at fewer
  exact (List.length_map _).symm.trans_le fewer

/-- There is room for everybody: as many slots are blocked as processes are
queued, and the slot of the running process is not one of them. -/
theorem Attentive.insert?_ne_none (attentive : exec.Attentive)
    (running : exec.table.currentId? = some caller) (deadline : Nat) :
    exec.sleepers.insert? caller deadline ≠ none := by
  obtain ⟨slot, current, rfl⟩ :=
    ProcessTable.currentId?_eq_some_iff.mp running
  have runs := beq_iff_eq.mp (attentive.settled slot current)
  -- The slot of the running process is the one that is surely not blocked.
  have spare : exec.blockedSlots.length < (List.finRange 16).length := by
    rw [blockedSlots, Slots.all, List.length_filter_lt_length_iff_exists]
    refine ⟨slot, List.mem_finRange slot, ?_⟩
    rw [runs]
    decide
  have queued := attentive.queued_le
  have sound : exec.sleepers.Sound := attentive.attuned.sound
  have erased :=
    DeadlineQueue.length_erase_le sound.distinct exec.table.slots[slot].id
  rw [List.length_finRange] at spare
  rw [ne_eq, DeadlineQueue.insert?_eq_none_iff, DeadlineQueue.capacity]
  omega

/-! What an event has the devices do, and what it means for sleepers. -/

def effects (exec : Executive) : Event → List Effect
  | .spawn entry stackSize mode name =>
      (exec.spawn entry stackSize mode name).effects
  | .install line hook => (exec.install line hook).2
  | .focus _ => []
  | .deliver key => (exec.deliver key).2
  | .start => exec.start.2
  | .terminate id =>
      match exec.terminate id with
      | .ok (_, effects) => effects
      | .error _ => []
  | .trap arrival => (exec.enter arrival).effects

/-- What the clock shows when the sleep timer interrupts. -/
def alarm? (exec : Executive) : Event → Option Nat
  | .trap ⟨.interrupt, _, readings⟩ =>
      if readings.pending.map exec.router.route = some .sleep then
        some readings.now
      else none
  | _ => none

/-- Who asks to sleep for some time, and until when. -/
def nap? (exec : Executive) : Event → Option (ProcessId × Nat)
  | .trap ⟨.synchronous, frame, readings⟩ => do
      let caller ← exec.table.currentId?
      let number ← frame.syndrome.callNumber?
      let duration := (frame.context.argument 0).toNat
      if number = Syscall.sleep.number ∧ 0 < duration then
        some (caller, min (readings.now + duration) maxWord)
      else none
  | _ => none

inductive Slumber (exec : Executive) (event : Event) : Prop
  | rested (quiet : exec.alarm? event = none) (busy : exec.nap? event = none)
      (rests : Rests exec (exec.step event) (exec.effects event))
  | ended (quiet : exec.alarm? event = none) (busy : exec.nap? event = none)
      (id : ProcessId) (ends : exec.Ends id event)
      (dormitory : (exec.step event).dormitory = exec.dormitory.without id)
      (silent : comparatorCommands (exec.effects event) = [])
  | dozed (quiet : exec.alarm? event = none) (id : ProcessId)
      (deadline : Nat) (naps : exec.nap? event = some (id, deadline))
      (queue : DeadlineQueue)
      (inserted : exec.sleepers.insert? id deadline = some queue)
      (dormitory : (exec.step event).dormitory =
        ⟨queue, insert id exec.dormitory.asleep⟩)
      (commands : comparatorCommands (exec.effects event) =
        queue.next?.toList.map .armSleep)
  | roused (now : Nat) (alarm : exec.alarm? event = some now)
      (busy : exec.nap? event = none)
      (dormitory : (exec.step event).dormitory = exec.dormitory.roused now)
      (commands : comparatorCommands (exec.effects event) =
        [(exec.step event).sleepers.command])

theorem callOf?_eq_some {frame : Frame} {readings : Readings}
    {service : Service}
    (called : exec.callOf? frame readings = some (caller, service)) :
    exec.table.currentId? = some caller ∧
      ∃ number, frame.syndrome.callNumber? = some number ∧
        service = (exec.capture frame.context).serve readings caller
          frame.context number := by
  simp only [callOf?, Option.bind_eq_bind, Option.bind_eq_some_iff,
    Option.some.injEq, Prod.mk.injEq] at called
  obtain ⟨_, running, number, named, rfl, rfl⟩ := called
  exact ⟨running, number, named, rfl⟩

theorem nap?_eq_none_of_callOf? {frame : Frame} {readings : Readings}
    (called : exec.callOf? frame readings = none) :
    exec.nap? (.trap ⟨.synchronous, frame, readings⟩) = none := by
  unfold callOf? at called
  cases running : exec.table.currentId? with
  | none => simp [nap?, running]
  | some caller =>
      cases named : frame.syndrome.callNumber? with
      | none => simp [nap?, named]
      | some number => simp [running, named] at called

/-- Between the end of a call and that of its trap nobody stirs. -/
theorem rests_after_call {frame : Frame} {readings : Readings}
    {service : Service}
    (called : exec.callOf? frame readings = some (caller, service)) :
    ∃ rest, Rests service.exec (exec.handleSynchronous frame readings).exec
        rest ∧
      (exec.handleSynchronous frame readings).effects =
        service.effects ++ rest := by
  rcases handleSynchronous_cases exec frame readings with
    ⟨idle, _⟩ | ⟨_, _, missing, _⟩ | ⟨_, _, _, same, ends⟩
  · rw [(callOf?_eq_some called).1] at idle
    cases idle
  · rw [called] at missing
    cases missing
  · obtain ⟨rfl, rfl⟩ := Prod.mk.inj (Option.some.inj (called.symm.trans same))
    rcases ends with ⟨_, _, same, _, effects⟩ | ⟨flow, _, same, _, effects⟩
    · rw [same, effects]
      exact ⟨[], Rests.refl _ rfl, (List.append_nil _).symm⟩
    · rw [same, effects]
      exact ⟨_, rests_settle service.exec caller flow, rfl⟩

theorem rests_dispatchInterrupt {readings : Readings} {interrupt : Nat}
    (other : exec.router.route interrupt ≠ .sleep) :
    Rests exec (exec.dispatchInterrupt readings interrupt).1
      (exec.dispatchInterrupt readings interrupt).2 := by
  unfold dispatchInterrupt
  split
  · exact ((rests_reschedule exec).cons rfl).cons rfl
  · rename_i sleep
    exact absurd sleep other
  · exact ((rests_deliverAll exec readings.keys).cons rfl).cons rfl
  · rename_i line _
    cases hooked : exec.router.hook? line <;> exact Rests.refl exec rfl
  · exact Rests.refl exec rfl

theorem dispatchInterrupt_of_sleep {readings : Readings} {interrupt : Nat}
    (sleep : exec.router.route interrupt = .sleep) :
    (exec.dispatchInterrupt readings interrupt).1.dormitory =
        exec.dormitory.roused readings.now ∧
      comparatorCommands (exec.dispatchInterrupt readings interrupt).2 =
        [(exec.dispatchInterrupt readings interrupt).1.sleepers.command] := by
  have dormitory := dormitory_wakeSleepers exec readings.now
  have commands := comparatorCommands_wakeSleepers exec readings.now
  unfold dispatchInterrupt
  rw [sleep]
  dsimp only
  split
  · have rests := rests_reschedule (exec.wakeSleepers readings.now).1
    refine ⟨rests.dormitory.trans dormitory, ?_⟩
    rw [comparatorCommands_append, comparatorCommands_append, commands,
      rests.silent]
    rfl
  · refine ⟨dormitory, ?_⟩
    rw [comparatorCommands_append, commands]
    rfl

theorem effects_handleInterrupt (exec : Executive) (frame : Frame)
    (readings : Readings) :
    (exec.handleInterrupt frame readings).effects =
      match readings.pending with
      | some interrupt =>
          ((exec.capture frame.context).dispatchInterrupt readings
            interrupt).2
      | none => [] := by
  unfold handleInterrupt
  cases readings.pending <;> rfl

theorem Coherent.slumber_interrupt (coherent : exec.Coherent) (frame : Frame)
    (readings : Readings) :
    exec.Slumber (.trap ⟨.interrupt, frame, readings⟩) := by
  have captured := coherent.rests_capture frame.context
  have router := router_capture exec frame.context
  have stepped : exec.step (.trap ⟨.interrupt, frame, readings⟩) = _ :=
    exec_handleInterrupt exec frame readings
  have effects : exec.effects (.trap ⟨.interrupt, frame, readings⟩) = _ :=
    effects_handleInterrupt exec frame readings
  cases pending : readings.pending with
  | none =>
      rw [pending] at stepped effects
      refine .rested (by simp [alarm?, pending]) rfl ?_
      rw [stepped, effects]
      exact captured
  | some interrupt =>
      rw [pending] at stepped effects
      by_cases sleep : exec.router.route interrupt = .sleep
      · have routed := sleep
        rw [← router] at routed
        obtain ⟨dormitory, commands⟩ := dispatchInterrupt_of_sleep routed
        rw [captured.dormitory] at dormitory
        refine .roused readings.now (by simp [alarm?, pending, sleep]) rfl
          ?_ ?_
        · rw [stepped]
          exact dormitory
        · rw [stepped, effects]
          exact commands
      · have routed := sleep
        rw [← router] at routed
        refine .rested (by simp [alarm?, pending, sleep]) rfl ?_
        rw [stepped, effects]
        exact captured.trans (rests_dispatchInterrupt routed)

theorem Coherent.slumber_stop (coherent : exec.Coherent) {frame : Frame}
    {readings : Readings}
    (running : exec.table.currentId? = some caller)
    (busy : exec.nap? (.trap ⟨.synchronous, frame, readings⟩) = none)
    (called : exec.callOf? frame readings = some (caller,
      (exec.capture frame.context).serve readings caller frame.context
        Syscall.stop.number)) :
    exec.Slumber (.trap ⟨.synchronous, frame, readings⟩) := by
  have captured := coherent.rests_capture frame.context
  have live := coherent.live_capture running frame.context
  have capturedCoherent := coherent.capture frame.context
  obtain ⟨rest, rests, effects⟩ := rests_after_call called
  rw [serve_number] at called rests effects
  unfold perform stop at called rests effects
  cases ended : (exec.capture frame.context).terminate caller with
  | error cause =>
      have missing := terminate_eq_error ended
      rw [ProcessTable.process?, missing] at live
      exact absurd rfl live
  | ok outcome =>
      obtain ⟨after, reports⟩ := outcome
      rw [ended] at called rests effects
      have left := capturedCoherent.dormitory_terminate ended
      rw [captured.dormitory] at left
      refine .ended rfl busy caller (.stopped frame readings _ called rfl)
        (rests.dormitory.trans left) ?_
      change comparatorCommands
        (exec.handleSynchronous frame readings).effects = []
      rw [effects, comparatorCommands_append, rests.silent,
        comparatorCommands_cons rfl]
      dsimp only
      rw [silent_of_commands (commands_terminate ended), List.append_nil]

theorem Attentive.slumber_nap (attentive : exec.Attentive) {frame : Frame}
    {readings : Readings}
    (running : exec.table.currentId? = some caller)
    (long : 0 < (frame.context.argument 0).toNat)
    (naps : exec.nap? (.trap ⟨.synchronous, frame, readings⟩) =
      some (caller,
        min (readings.now + (frame.context.argument 0).toNat) maxWord))
    (called : exec.callOf? frame readings = some (caller,
      (exec.capture frame.context).serve readings caller frame.context
        Syscall.sleep.number)) :
    exec.Slumber (.trap ⟨.synchronous, frame, readings⟩) := by
  have coherent := attentive.coherent
  have captured := coherent.rests_capture frame.context
  have sleepers : (exec.capture frame.context).sleepers = exec.sleepers :=
    congrArg Dormitory.queue captured.dormitory
  have live := coherent.live_capture running frame.context
  obtain ⟨queue, inserted⟩ := Option.ne_none_iff_exists'.mp
    (attentive.insert?_ne_none running
      (min (readings.now + (frame.context.argument 0).toNat) maxWord))
  rw [← sleepers] at inserted
  obtain ⟨entered, commands⟩ := dormitory_sleep live long inserted
  obtain ⟨rest, rests, effects⟩ := rests_after_call called
  rw [serve_number] at rests effects
  rw [captured.dormitory] at entered
  rw [sleepers] at inserted
  refine .dozed rfl caller _ naps queue inserted
    (rests.dormitory.trans entered) ?_
  change comparatorCommands
    (exec.handleSynchronous frame readings).effects = _
  rw [effects, comparatorCommands_append, rests.silent,
    comparatorCommands_cons rfl, List.append_nil]
  exact commands

theorem Attentive.slumber_synchronous (attentive : exec.Attentive)
    (frame : Frame) (readings : Readings) :
    exec.Slumber (.trap ⟨.synchronous, frame, readings⟩) := by
  have coherent := attentive.coherent
  have captured := coherent.rests_capture frame.context
  cases called : exec.callOf? frame readings with
  | none =>
      refine .rested rfl (nap?_eq_none_of_callOf? called) ?_
      change Rests exec (exec.handleSynchronous frame readings).exec
        (exec.handleSynchronous frame readings).effects
      rcases handleSynchronous_cases exec frame readings with
        ⟨_, same, _, effects⟩ | ⟨_, _, _, same, _, effects⟩ |
          ⟨_, _, _, found, _⟩
      · rw [same, effects]
        exact Rests.refl exec rfl
      · rw [same, effects]
        exact captured
      · rw [called] at found
        cases found
  | some outcome =>
      obtain ⟨caller, service⟩ := outcome
      obtain ⟨running, number, named, rfl⟩ := callOf?_eq_some called
      have naps : exec.nap? (.trap ⟨.synchronous, frame, readings⟩) =
          if number = Syscall.sleep.number ∧
              0 < (frame.context.argument 0).toNat then
            some (caller,
              min (readings.now + (frame.context.argument 0).toNat) maxWord)
          else none := by
        simp [nap?, running, named]
      -- Two calls alone touch who sleeps: a stop, and a sleep of some length.
      by_cases stops : number = Syscall.stop.number
      · subst stops
        rw [if_neg fun sleeps => absurd sleeps.1 (by decide)] at naps
        exact coherent.slumber_stop running naps called
      · by_cases sleeps : number = Syscall.sleep.number ∧
            0 < (frame.context.argument 0).toNat
        · obtain ⟨rfl, long⟩ := sleeps
          rw [if_pos ⟨rfl, long⟩] at naps
          exact attentive.slumber_nap running long naps called
        · rw [if_neg sleeps] at naps
          refine .rested rfl naps ?_
          change Rests exec (exec.handleSynchronous frame readings).exec
            (exec.handleSynchronous frame readings).effects
          obtain ⟨rest, rests, effects⟩ := rests_after_call called
          have brief (sleep : number = Syscall.sleep.number) :
              (frame.context.argument 0).toNat = 0 :=
            Nat.eq_zero_of_not_pos fun long => sleeps ⟨sleep, long⟩
          have served := rests_serve (exec.capture frame.context) readings
            caller frame.context brief stops
          rw [effects]
          exact (captured.trans served).trans rests

theorem Attentive.slumber (attentive : exec.Attentive) (event : Event) :
    exec.Slumber event := by
  have coherent := attentive.coherent
  cases event with
  | spawn entry stackSize mode name =>
      exact .rested rfl rfl (coherent.rests_spawn entry stackSize mode name)
  | install line hook => exact .rested rfl rfl ⟨rfl, rfl⟩
  | focus id =>
      refine .rested rfl rfl ?_
      rcases step_focus exec id with same | ⟨after, focused, same⟩
      · rw [same]
        exact Rests.refl exec rfl
      · rw [same]
        exact rests_focus focused
  | deliver key => exact .rested rfl rfl (rests_deliver exec key)
  | start => exact .rested rfl rfl (rests_start exec)
  | terminate id =>
      cases ended : exec.terminate id with
      | error cause =>
          refine .rested rfl rfl ?_
          rw [step, effects, ended]
          exact Rests.refl exec rfl
      | ok outcome =>
          obtain ⟨after, reports⟩ := outcome
          obtain ⟨slot, found, _⟩ := terminate_eq_ok ended
          refine .ended rfl rfl id (.terminated ?_) ?_ ?_
          · rw [ProcessTable.process?_of_slotOf? found]
            exact Option.some_ne_none _
          · rw [step, ended]
            exact coherent.dormitory_terminate ended
          · rw [effects, ended]
            exact silent_of_commands (commands_terminate ended)
  | trap arrival =>
      obtain ⟨cause, frame, readings⟩ := arrival
      cases cause with
      | interrupt => exact coherent.slumber_interrupt frame readings
      | synchronous => exact attentive.slumber_synchronous frame readings

end Executive

end Nucleus
