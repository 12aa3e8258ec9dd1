import Nucleus.Proofs.Executive.Commands
import Nucleus.Proofs.Executive.Sleep

/-!
Interrupts.  What the devices are told about a pending interrupt depends on
its line, and one acknowledgement is always part of it.  Only the tick, and a
sleeper who wakes while the processor idles, change who runs; otherwise the
trap returns to the very context that it interrupted.
-/

namespace Nucleus

def Effect.isAcknowledgement : Effect → Bool
  | .acknowledge _ => true
  | _ => false

def Effect.isCall : Effect → Bool
  | .call _ => true
  | _ => false

namespace ProcessTable

/-- The same process runs, or still none does. -/
structure Unswitched (after before : ProcessTable) : Prop where
  current : after.current = before.current
  id : ∀ slot : Fin 16, after.slots[slot].id = before.slots[slot].id
  running_iff : ∀ slot : Fin 16, after.slots[slot].state = .running ↔
    before.slots[slot].state = .running

variable {table after middle before : ProcessTable}

theorem Unswitched.refl (table : ProcessTable) : Unswitched table table :=
  ⟨rfl, fun _ => rfl, fun _ => Iff.rfl⟩

theorem Unswitched.trans (later : Unswitched after middle)
    (earlier : Unswitched middle before) : Unswitched after before where
  current := later.current.trans earlier.current
  id slot := (later.id slot).trans (earlier.id slot)
  running_iff slot :=
    (later.running_iff slot).trans (earlier.running_iff slot)

theorem Amends.unswitched (amends : Amends after before) :
    Unswitched after before := by
  refine ⟨amends.current, amends.id, fun slot => ?_⟩
  rw [amends.state]

theorem Unswitched.currentId? (unswitched : Unswitched after before) :
    after.currentId? = before.currentId? := by
  unfold ProcessTable.currentId? currentProcess?
  rw [unswitched.current]
  cases before.current with
  | none => rfl
  | some slot => exact congrArg some (unswitched.id slot)

def WakesNobody (before after : ProcessTable) : Prop :=
  ∀ id, before.Sleeps id → after.Sleeps id

end ProcessTable

open ProcessTable (Unswitched)

namespace Executive

variable {exec : Executive} {readings : Readings} {interrupt : Nat}

def hooked? (exec : Executive) : Route → Option Hook
  | .device line => exec.router.hook? line
  | _ => none

/-- What an interrupt comes to, in the order in which the devices see it. -/
def orders (exec : Executive) (readings : Readings) (interrupt : Nat) :
    Route → List Effect
  | .tick => [.rearmTick, .acknowledge interrupt]
  | .sleep =>
      [(exec.sleepers.drainExpired readings.now).2.command,
        .acknowledge interrupt]
  | .input => [.acknowledge interrupt, .drainInput]
  | .device line =>
      .acknowledge interrupt :: (exec.router.hook? line).toList.map .call
  | .unknown _ => [.acknowledge interrupt]

theorem commands_dispatchInterrupt (exec : Executive) (readings : Readings)
    (interrupt : Nat) :
    commands (exec.dispatchInterrupt readings interrupt).2 =
      exec.orders readings interrupt (exec.router.route interrupt) := by
  unfold dispatchInterrupt
  cases exec.router.route interrupt with
  | tick =>
      dsimp only
      rw [commands_cons rfl, commands_cons rfl, commands_reschedule]
      rfl
  | sleep =>
      dsimp only
      split
      · rw [commands_append, commands_append, commands_wakeSleepers,
          commands_reschedule]
        rfl
      · rw [commands_append, commands_wakeSleepers]
        rfl
  | input =>
      dsimp only
      rw [commands_cons rfl, commands_cons rfl, commands_deliverAll]
      rfl
  | device line =>
      dsimp only [orders]
      cases exec.router.hook? line <;> rfl
  | unknown _ => rfl

structure Tells (interrupt : Nat) (route : Route) (hook? : Option Hook)
    (effects : List Effect) : Prop where
  acknowledged : effects.filter Effect.isAcknowledgement =
    [.acknowledge interrupt]
  rearmed : effects.count .rearmTick = if route = .tick then 1 else 0
  alarm_set : (comparatorCommands effects).length =
    if route = .sleep then 1 else 0
  called : effects.filter Effect.isCall = hook?.toList.map .call
  acknowledged_first : ∀ hook, hook? = some hook →
    commands effects = [.acknowledge interrupt, .call hook]

theorem Tells.of_commands {route : Route} {hook? : Option Hook}
    {effects : List Effect}
    (tells : Tells interrupt route hook? (commands effects)) :
    Tells interrupt route hook? effects := by
  constructor
  · rw [← filter_commands fun _ => rfl]
    exact tells.acknowledged
  · rw [← tells.rearmed]
    exact (List.count_filter rfl).symm
  · rw [← comparatorCommands_commands]
    exact tells.alarm_set
  · rw [← filter_commands fun _ => rfl]
    exact tells.called
  · intro hook hooked
    rw [← commands_commands]
    exact tells.acknowledged_first hook hooked

theorem tells_orders (exec : Executive) (readings : Readings)
    (interrupt : Nat) (route : Route) :
    Tells interrupt route (exec.hooked? route)
      (exec.orders readings interrupt route) := by
  cases route with
  | tick | input | unknown _ => exact ⟨rfl, rfl, rfl, rfl, nofun⟩
  | sleep =>
      unfold orders DeadlineQueue.command
      dsimp only
      cases (exec.sleepers.drainExpired readings.now).2.next? with
      | none | some _ => exact ⟨rfl, rfl, rfl, rfl, nofun⟩
  | device line =>
      unfold orders hooked?
      dsimp only
      cases exec.router.hook? line with
      | none => exact ⟨rfl, rfl, rfl, rfl, nofun⟩
      | some hook =>
          refine ⟨rfl, rfl, rfl, rfl, fun other same => ?_⟩
          rw [← Option.some.inj same]
          rfl

theorem unswitched_setState {table : ProcessTable} {slot : Fin 16}
    (blocked : table.slots[slot].state = .blocked) :
    Unswitched (table.setState slot .ready) table := by
  have restates := ProcessTable.restates_setState (live_of_blocked blocked)
    (by decide : ProcessState.ready ≠ .stopped)
  refine ⟨rfl, restates.id, fun other => ?_⟩
  rw [ProcessTable.slots_setState]
  split
  · rename_i here
    rw [here, blocked]
    exact ⟨nofun, nofun⟩
  · exact Iff.rfl

theorem unswitched_wakeAll (table : ProcessTable) (ids : List ProcessId) :
    Unswitched (wakeAll table ids).1 table := by
  refine wakeAll_induction
    (motive := fun woken => Unswitched woken table) ?_
    (Unswitched.refl table) ids
  intro middle slot unswitched blocked
  exact (unswitched_setState blocked).trans unswitched

theorem exists_sleeper_of_woken {table : ProcessTable}
    {ids : List ProcessId} (woken : (wakeAll table ids).2 ≠ []) :
    ∃ id ∈ ids, table.Sleeps id := by
  induction ids with
  | nil => exact absurd rfl woken
  | cons first rest ih =>
      by_cases asleep : table.Sleeps first
      · exact ⟨first, List.mem_cons_self, asleep⟩
      · rw [wakeAll_of_awake asleep] at woken
        obtain ⟨id, member, asleep⟩ := ih woken
        exact ⟨id, List.mem_cons_of_mem first member, asleep⟩

theorem unswitched_dispatchInterrupt
    (calm : exec.router.route interrupt ≠ .tick)
    (nobody : exec.router.route interrupt = .sleep →
      exec.table.current = none → ProcessTable.WakesNobody exec.table
        (exec.dispatchInterrupt readings interrupt).1.table) :
    Unswitched (exec.dispatchInterrupt readings interrupt).1.table
      exec.table := by
  cases route : exec.router.route interrupt with
  | tick => exact absurd route calm
  | sleep =>
      -- Nobody who is due sleeps on.  If the processor idles and nobody may
      -- wake, nobody was due, and so no decision is taken.
      have gone : ∀ id ∈ (exec.sleepers.drainExpired readings.now).1,
          ¬ (exec.dispatchInterrupt readings interrupt).1.table.Sleeps id := by
        intro id due stays
        have asleep :
            id ∈ (exec.dispatchInterrupt readings interrupt).1.dormitory.asleep :=
          stays
        rw [(dispatchInterrupt_of_sleep route).1] at asleep
        exact asleep.2 due
      have undecided : ¬ (0 < (exec.wakeSleepers readings.now).2.1 ∧
          (exec.wakeSleepers readings.now).1.table.current = none) := by
        rintro ⟨woke, idle⟩
        obtain ⟨id, due, asleep⟩ :=
          exists_sleeper_of_woken (List.ne_nil_of_length_pos woke)
        have idle : exec.table.current = none :=
          (current_wakeAll _ _).symm.trans idle
        exact gone id due (nobody route idle id asleep)
      rw [dispatchInterrupt, route]
      dsimp only
      rw [if_neg undecided]
      exact unswitched_wakeAll exec.table _
  | input =>
      rw [dispatchInterrupt, route]
      exact (amends_deliverAll exec readings.keys).unswitched
  | device line | unknown number =>
      rw [dispatchInterrupt, route]
      exact Unswitched.refl exec.table

def routed? (exec : Executive) (readings : Readings) : Option Route :=
  readings.pending.map exec.router.route

theorem Coherent.unswitched_handleInterrupt (coherent : exec.Coherent)
    (frame : Frame) (calm : exec.routed? readings ≠ some .tick)
    (nobody : exec.routed? readings = some .sleep →
      exec.table.current = none → ProcessTable.WakesNobody exec.table
        (exec.handleInterrupt frame readings).exec.table) :
    Unswitched (exec.handleInterrupt frame readings).exec.table
      exec.table := by
  have amends := amends_capture coherent frame.context
  rw [exec_handleInterrupt] at nobody ⊢
  unfold routed? at calm nobody
  cases pending : readings.pending with
  | none => exact amends.unswitched
  | some interrupt =>
      rw [pending] at calm nobody
      rw [Option.map_some, ← router_capture exec frame.context] at calm nobody
      refine Unswitched.trans ?_ amends.unswitched
      refine unswitched_dispatchInterrupt (fun tick => ?_)
        fun sleep idle id asleep => ?_
      · exact calm (congrArg some tick)
      · exact nobody (congrArg some sleep) (amends.current.symm.trans idle) id
          ((amends.sleeps id).mp asleep)

/-- A trap that leaves the processor to whoever had it returns to the context
that it interrupted. -/
theorem Coherent.frame_handleInterrupt (coherent : exec.Coherent)
    (frame : Frame)
    (unswitched : Unswitched
      (exec.handleInterrupt frame readings).exec.table exec.table) :
    (exec.handleInterrupt frame readings).frame = frame := by
  have traps := coherent.traps_handleInterrupt frame readings
  have same := unswitched.currentId?
  have next : (exec.handleInterrupt frame readings).exec.nextContext =
      frame.context := by
    cases running : exec.table.currentId? with
    | none =>
        rw [running] at same
        rw [nextContext_of_idle same, traps.idle, if_pos running]
    | some caller =>
        rw [running] at same
        obtain ⟨process, found, next⟩ :=
          traps.coherent.nextContext_of_running same
        have estate : (exec.handleInterrupt frame
            readings).exec.table.estate? caller = some process.estate := by
          rw [ProcessTable.estate?, found]
          rfl
        obtain ⟨old, _, kept⟩ := traps.own caller process.estate running estate
        rw [next]
        exact congrArg Process.context kept
  have resumed : (exec.handleInterrupt frame readings).frame =
      frame.resume (exec.handleInterrupt frame readings).exec.nextContext :=
    rfl
  rw [resumed, next]
  rfl

theorem tells_handleInterrupt (exec : Executive) (frame : Frame)
    (pending : readings.pending = some interrupt) :
    Tells interrupt (exec.router.route interrupt)
      (exec.hooked? (exec.router.route interrupt))
      (exec.handleInterrupt frame readings).effects := by
  rw [effects_handleInterrupt, pending]
  have router := router_capture exec frame.context
  have told :=
    tells_orders (exec.capture frame.context) readings interrupt
      ((exec.capture frame.context).router.route interrupt)
  rw [← commands_dispatchInterrupt] at told
  unfold hooked? at told ⊢
  rw [router] at told
  exact told.of_commands

structure Attended (exec : Executive) (frame : Frame) (readings : Readings)
    (trap : Trap) : Prop where
  spurious : readings.pending = none → trap.effects = []
  told : ∀ interrupt, readings.pending = some interrupt →
    Tells interrupt (exec.router.route interrupt)
      (exec.hooked? (exec.router.route interrupt)) trap.effects
  transparent : exec.routed? readings ≠ some .tick →
    (exec.routed? readings = some .sleep → exec.table.current = none →
      ProcessTable.WakesNobody exec.table trap.exec.table) →
    trap.frame = frame ∧ Unswitched trap.exec.table exec.table

/-- In every reachable state an interrupt is acknowledged and passed on as its
line demands, and unless the line is the tick's, or an idle processor sees a
sleeper wake, the trap returns to where it came from. -/
theorem interrupts_attended (config : Configuration) (events : List Event)
    (frame : Frame) (readings : Readings) :
    ((boot config).run events).Attended frame readings
      (((boot config).run events).handleInterrupt frame readings) := by
  have coherent := (coherent_boot config).run events
  constructor
  · intro none
    rw [effects_handleInterrupt, none]
  · intro interrupt pending
    exact tells_handleInterrupt _ frame pending
  · intro calm nobody
    have unswitched := coherent.unswitched_handleInterrupt frame calm nobody
    exact ⟨coherent.frame_handleInterrupt frame unswitched, unswitched⟩

end Executive

end Nucleus
