import Nucleus.Proofs.Executive.Slumber

/-!
Sleep.  In every reachable state the deadline queue holds exactly the blocked
processes.  Whoever asks to sleep gets a place in it, stays blocked until the
sleep timer interrupts at the deadline or later, and is woken by the first such
interrupt.
-/

namespace Nucleus

namespace Executive

variable {exec : Executive} {id caller : ProcessId} {deadline now : Nat}
  {event : Event}

theorem sleepers_boot (config : Configuration) :
    (boot config).sleepers = DeadlineQueue.empty := by
  rcases boot_cases config with refused | ⟨memory, _, booted⟩
  · rw [refused]
    rfl
  · rw [booted]
    rfl

theorem attentive_boot (config : Configuration) :
    (boot config).Attentive := by
  refine ⟨coherent_boot config, settled_boot config, ?_⟩
  have nobody : {id | (boot config).table.Sleeps id} = ∅ := by
    rw [Set.eq_empty_iff_forall_notMem]
    intro id asleep
    obtain ⟨slot, found, _⟩ := ProcessTable.state?_eq_some asleep
    have gone := ProcessTable.process?_empty id
    rw [table_boot] at found
    rw [ProcessTable.process?_of_slotOf? found] at gone
    cases gone
  rw [dormitory, sleepers_boot, nobody]
  exact Dormitory.attuned_empty

theorem Attentive.step (attentive : exec.Attentive) (event : Event) :
    (exec.step event).Attentive := by
  refine ⟨attentive.coherent.step event,
    attentive.coherent.settled_step attentive.settled event, ?_⟩
  cases attentive.slumber event with
  | rested quiet busy rests =>
      rw [rests.dormitory]
      exact attentive.attuned
  | ended quiet busy id ends dormitory silent =>
      rw [dormitory]
      exact attentive.attuned.without id
  | dozed quiet id deadline naps queue inserted dormitory commands =>
      rw [dormitory]
      exact attentive.attuned.admit inserted
  | roused now alarm busy dormitory commands =>
      rw [dormitory]
      exact attentive.attuned.roused now

theorem Attentive.run (attentive : exec.Attentive) (events : List Event) :
    (exec.run events).Attentive := by
  induction events generalizing exec with
  | nil => exact attentive
  | cons event rest ih => exact ih (attentive.step event)

theorem running_of_nap? (naps : exec.nap? event = some (id, deadline)) :
    exec.table.currentId? = some id := by
  unfold nap? at naps
  split at naps
  · simp only [Option.bind_eq_bind, Option.bind_eq_some_iff] at naps
    obtain ⟨caller, running, number, _, asks⟩ := naps
    split at asks
    · obtain ⟨rfl, _⟩ := Prod.mk.inj (Option.some.inj asks)
      exact running
    · cases asks
  · cases naps

theorem Attentive.deadline?_of_nap? (attentive : exec.Attentive)
    (naps : exec.nap? event = some (id, deadline)) :
    (exec.step event).sleepers.deadline? id = some deadline := by
  cases attentive.slumber event with
  | rested quiet busy rests =>
      rw [naps] at busy
      cases busy
  | ended quiet busy other ends dormitory silent =>
      rw [naps] at busy
      cases busy
  | dozed quiet other late named queue inserted dormitory commands =>
      obtain ⟨rfl, rfl⟩ :=
        Prod.mk.inj (Option.some.inj (naps.symm.trans named))
      have sound : exec.sleepers.Sound := attentive.attuned.sound
      have queued : (exec.step event).sleepers = queue :=
        congrArg Dormitory.queue dormitory
      rw [queued, sound.deadline?_insert inserted, if_pos rfl]
  | roused now alarm busy dormitory commands =>
      rw [naps] at busy
      cases busy

theorem Attentive.deadline?_step (attentive : exec.Attentive)
    (waits : exec.sleepers.deadline? id = some deadline)
    (stays : ¬ exec.Ends id event)
    (early : ∀ now, exec.alarm? event = some now → now < deadline) :
    (exec.step event).sleepers.deadline? id = some deadline := by
  have sound : exec.sleepers.Sound := attentive.attuned.sound
  have asleep : exec.table.Sleeps id := attentive.attuned.mem_asleep waits
  cases attentive.slumber event with
  | rested quiet busy rests =>
      have queued : (exec.step event).sleepers = exec.sleepers :=
        congrArg Dormitory.queue rests.dormitory
      rw [queued]
      exact waits
  | ended quiet busy other ends dormitory silent =>
      have queued : (exec.step event).sleepers = exec.sleepers.erase other :=
        congrArg Dormitory.queue dormitory
      have away : id ≠ other := by
        rintro rfl
        exact stays ends
      rw [queued, sound.deadline?_erase, if_neg away]
      exact waits
  | dozed quiet other late naps queue inserted dormitory commands =>
      have queued : (exec.step event).sleepers = queue :=
        congrArg Dormitory.queue dormitory
      have away : id ≠ other := by
        rintro rfl
        exact attentive.awake_of_running (running_of_nap? naps) asleep
      rw [queued, sound.deadline?_insert inserted, if_neg away]
      exact waits
  | roused now alarm busy dormitory commands =>
      have queued : (exec.step event).sleepers =
          (exec.sleepers.drainExpired now).2 :=
        congrArg Dormitory.queue dormitory
      rw [queued, sound.deadline?_drainExpired, waits]
      simp [early now alarm]

/-- Nothing happens that may wake the process: it does not end, and the sleep
timer does not interrupt at its deadline or later. -/
def LetsSleep (exec : Executive) (id : ProcessId) (deadline : Nat) :
    List Event → Prop
  | [] => True
  | event :: rest =>
      ¬ exec.Ends id event ∧
      (∀ now, exec.alarm? event = some now → now < deadline) ∧
      (exec.step event).LetsSleep id deadline rest

theorem Attentive.deadline?_run (attentive : exec.Attentive)
    (waits : exec.sleepers.deadline? id = some deadline)
    {later : List Event} (undisturbed : exec.LetsSleep id deadline later) :
    (exec.run later).sleepers.deadline? id = some deadline := by
  induction later generalizing exec with
  | nil => exact waits
  | cons event rest ih =>
      obtain ⟨stays, early, undisturbed⟩ := undisturbed
      exact ih (attentive.step event)
        (attentive.deadline?_step waits stays early) undisturbed

theorem alarm?_eq_some (alarm : exec.alarm? event = some now) :
    ∃ frame readings interrupt,
      event = .trap ⟨.interrupt, frame, readings⟩ ∧
      readings.pending = some interrupt ∧
      exec.router.route interrupt = .sleep ∧ readings.now = now := by
  unfold alarm? at alarm
  split at alarm
  · rename_i frame readings
    split at alarm
    · rename_i sleep
      obtain ⟨interrupt, pending, route⟩ := Option.map_eq_some_iff.mp sleep
      exact ⟨frame, readings, interrupt, rfl, pending, route,
        Option.some.inj alarm⟩
    · cases alarm
  · cases alarm

theorem current_wakeAll (table : ProcessTable) (ids : List ProcessId) :
    (wakeAll table ids).1.current = table.current :=
  wakeAll_induction (motive := fun woken => woken.current = table.current)
    (fun _ _ same _ => same) rfl ids

/-- Whoever is woken is reported first; an idle processor then picks anew. -/
theorem dispatchInterrupt_wakes (readings : Readings) {interrupt : Nat}
    (sleep : exec.router.route interrupt = .sleep) :
    let awake :=
      wakeAll exec.table (exec.sleepers.drainExpired readings.now).1
    awake.2.map (Journal.woke · readings.now) <+:
        (exec.dispatchInterrupt readings interrupt).2 ∧
      ((exec.dispatchInterrupt readings interrupt).1.table = awake.1 ∨
        exec.table.currentId? = none ∧
        (exec.dispatchInterrupt readings interrupt).1.table =
          awake.1.advance.1) := by
  intro awake
  have reported : awake.2.map (Journal.woke · readings.now) <+:
      (exec.wakeSleepers readings.now).2.2 ++ [.acknowledge interrupt] :=
    (List.prefix_append _ _).trans (List.prefix_append _ _)
  unfold dispatchInterrupt
  rw [sleep]
  dsimp only
  split
  · rename_i idle
    have unused : awake.1.current = none := idle.2
    rw [current_wakeAll, ← ProcessTable.currentId?_eq_none_iff] at unused
    exact ⟨reported.trans (List.prefix_append _ _), Or.inr ⟨unused, rfl⟩⟩
  · exact ⟨reported, Or.inl rfl⟩

structure Rouses (exec : Executive) (event : Event) (now : Nat)
    (ids : List ProcessId) : Prop where
  once : ids.Nodup
  due : ∀ id, id ∈ ids ↔
    ∃ deadline, exec.sleepers.deadline? id = some deadline ∧ deadline ≤ now
  reported : ids.map (Journal.woke · now) <+: exec.effects event
  woken : ∀ id ∈ ids,
    (exec.step event).table.state? id = some .ready ∨
      exec.table.currentId? = none ∧
      (exec.step event).table.state? id = some .running
  others : ∀ id, id ∉ ids → exec.table.state? id = some .blocked →
    (exec.step event).table.state? id = some .blocked

theorem amends_capture (coherent : exec.Coherent) (context : Context) :
    ProcessTable.Amends (exec.capture context).table exec.table := by
  rcases coherent.capture_cases context with
    ⟨_, same⟩ | ⟨holder, table, _, same, rewrites⟩
  · rw [same]
    exact ProcessTable.Amends.refl exec.table
  · rw [same]
    exact rewrites.amends

theorem Attentive.dormitory_of_alarm? (attentive : exec.Attentive)
    (alarm : exec.alarm? event = some now) :
    (exec.step event).dormitory = exec.dormitory.roused now := by
  cases attentive.slumber event with
  | rested quiet busy rests =>
      rw [alarm] at quiet
      cases quiet
  | ended quiet busy id ends dormitory silent =>
      rw [alarm] at quiet
      cases quiet
  | dozed quiet id deadline naps queue inserted dormitory commands =>
      rw [alarm] at quiet
      cases quiet
  | roused clock shown busy dormitory commands =>
      obtain rfl := Option.some.inj (alarm.symm.trans shown)
      exact dormitory

theorem Attentive.rouses (attentive : exec.Attentive)
    (alarm : exec.alarm? event = some now) :
    exec.Rouses event now (exec.sleepers.drainExpired now).1 := by
  have sound : exec.sleepers.Sound := attentive.attuned.sound
  have distinct := sound.nodup_drainExpired now
  have left := attentive.dormitory_of_alarm? alarm
  obtain ⟨frame, readings, interrupt, rfl, pending, route, rfl⟩ :=
    alarm?_eq_some alarm
  have stepped : exec.step (.trap ⟨.interrupt, frame, readings⟩) = _ :=
    exec_handleInterrupt exec frame readings
  have effects : exec.effects (.trap ⟨.interrupt, frame, readings⟩) = _ :=
    effects_handleInterrupt exec frame readings
  -- The trap is dealt with once the frame has been captured, and that leaves
  -- everybody's state as it was.
  have sleepers : (exec.capture frame.context).sleepers = exec.sleepers :=
    congrArg Dormitory.queue
      (attentive.coherent.rests_capture frame.context).dormitory
  have amends := amends_capture attentive.coherent frame.context
  have asleep : ∀ id ∈ (exec.sleepers.drainExpired readings.now).1,
      (exec.capture frame.context).table.Sleeps id := by
    intro id member
    obtain ⟨deadline, waits, _⟩ := sound.mem_drainExpired.mp member
    exact (amends.sleeps id).mpr (attentive.attuned.mem_asleep waits)
  rw [← router_capture exec frame.context] at route
  obtain ⟨reported, table⟩ := dispatchInterrupt_wakes readings route
  rw [pending] at stepped effects
  rw [sleepers] at reported table
  rw [woken_wakeAll distinct asleep] at reported
  constructor
  · exact distinct
  · exact fun id => sound.mem_drainExpired
  · rw [effects]
    exact reported
  · intro id member
    have ready : (wakeAll (exec.capture frame.context).table
        (exec.sleepers.drainExpired readings.now).1).1.state? id =
          some .ready := by
      rw [state?_wakeAll, if_pos ⟨member, asleep id member⟩]
    rw [stepped]
    rcases table with same | ⟨idle, same⟩
    · exact Or.inl (by rw [same, ready])
    · rw [ProcessTable.currentId?_eq_none_iff, amends.current,
        ← ProcessTable.currentId?_eq_none_iff] at idle
      rw [same]
      exact (ProcessTable.state?_advance ready).imp_right (And.intro idle)
  · intro id spared blocked
    have stays : id ∈ (exec.dormitory.roused readings.now).asleep :=
      ⟨blocked, spared⟩
    rw [← left] at stays
    exact stays

/-- What sleepers can rely on from a state onwards. -/
structure Punctual (exec : Executive) : Prop where
  queued_once : exec.sleepers.ids.Nodup
  queued_iff : ∀ id, id ∈ exec.sleepers.ids ↔
    ∃ slot : Fin 16, exec.table.slots[slot].id = id ∧
      exec.table.slots[slot].state = .blocked
  never_full : ∀ caller deadline, exec.table.currentId? = some caller →
    exec.sleepers.insert? caller deadline ≠ none
  falls_asleep : ∀ caller frame readings,
    exec.table.currentId? = some caller →
    frame.syndrome.callNumber? = some Syscall.sleep.number →
    0 < (frame.context.argument 0).toNat →
      (exec.step (.trap ⟨.synchronous, frame, readings⟩)).table.state?
          caller = some .blocked ∧
      (exec.step (.trap ⟨.synchronous, frame, readings⟩)).sleepers.deadline?
          caller =
        some (min (readings.now + (frame.context.argument 0).toNat) maxWord)
  sleeps_on : ∀ id deadline later,
    exec.sleepers.deadline? id = some deadline →
    exec.LetsSleep id deadline later →
      (exec.run later).table.state? id = some .blocked ∧
      (exec.run later).sleepers.deadline? id = some deadline
  rouses : ∀ event now, exec.alarm? event = some now →
    ∃ ids, exec.Rouses event now ids

theorem Attentive.punctual (attentive : exec.Attentive) : exec.Punctual := by
  constructor
  · exact attentive.attuned.sound.distinct
  · intro id
    exact (attentive.attuned.mem_ids_iff id).trans
      (attentive.coherent.table.sleeps_iff id)
  · exact fun caller deadline running =>
      attentive.insert?_ne_none running deadline
  · intro caller frame readings running named long
    have naps : exec.nap? (.trap ⟨.synchronous, frame, readings⟩) =
        some (caller,
          min (readings.now + (frame.context.argument 0).toNat) maxWord) := by
      simp [nap?, running, named, long]
    have waits := attentive.deadline?_of_nap? naps
    exact ⟨(attentive.step _).attuned.mem_asleep waits, waits⟩
  · intro id deadline later waits undisturbed
    have waiting := attentive.deadline?_run waits undisturbed
    exact ⟨(attentive.run later).attuned.mem_asleep waiting, waiting⟩
  · exact fun event now alarm => ⟨_, attentive.rouses alarm⟩

/-- Sleep is punctual in every reachable state. -/
theorem punctual_run (config : Configuration) (events : List Event) :
    ((boot config).run events).Punctual :=
  ((attentive_boot config).run events).punctual

end Executive

end Nucleus
