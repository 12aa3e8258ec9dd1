import Nucleus.Proofs.Executive.Sleep

namespace Nucleus

/-- The command that the comparator obeys once the effects have been carried
out. -/
def lastCommand? (effects : List Effect) : Option Effect :=
  (comparatorCommands effects).getLast?

theorem lastCommand?_append (earlier later : List Effect) :
    lastCommand? (earlier ++ later) =
      (lastCommand? later).or (lastCommand? earlier) := by
  rw [lastCommand?, comparatorCommands_append, List.getLast?_append]
  rfl

namespace Executive

def trace (exec : Executive) : List Event → List Effect
  | [] => []
  | event :: rest => exec.effects event ++ (exec.step event).trace rest

/-- The comparator will not let anybody oversleep. -/
def Armed (command : Option Effect) (queue : DeadlineQueue) : Prop :=
  ∀ sleeper ∈ queue.toList, ∃ deadline,
    command = some (.armSleep deadline) ∧ deadline ≤ sleeper.deadline

variable {exec : Executive} {command : Option Effect}
  {queue : DeadlineQueue} {now : Nat}

theorem armed_next? (sound : queue.Sound) :
    Armed (queue.next?.map .armSleep) queue := by
  intro sleeper member
  cases front : queue.next? with
  | none =>
      rw [DeadlineQueue.next?_eq_none_iff.mp front] at member
      cases member
  | some earliest =>
      have waits := (DeadlineQueue.deadline?_eq_some_iff sound.distinct).mpr
        member
      exact ⟨earliest, rfl, sound.next?_le front waits⟩

theorem armed_command (sound : queue.Sound) :
    Armed (some queue.command) queue := by
  intro sleeper member
  obtain ⟨deadline, front, early⟩ := armed_next? sound sleeper member
  obtain ⟨earliest, front, same⟩ := Option.map_eq_some_iff.mp front
  rw [DeadlineQueue.command, front]
  exact ⟨deadline, congrArg some same, early⟩

theorem Armed.or (armed : Armed command queue) (earlier : Option Effect) :
    Armed (command.or earlier) queue := by
  intro sleeper member
  obtain ⟨deadline, rfl, early⟩ := armed sleeper member
  exact ⟨deadline, rfl, early⟩

/-- Only an end leaves the comparator as it was, perhaps set too early; nobody
is queued for it to be too late for. -/
theorem Attentive.armed_step (attentive : exec.Attentive)
    (armed : Armed command exec.sleepers) (event : Event) :
    Armed ((lastCommand? (exec.effects event)).or command)
      (exec.step event).sleepers := by
  have sound : (exec.step event).sleepers.Sound :=
    (attentive.step event).attuned.sound
  cases attentive.slumber event with
  | rested quiet busy rests =>
      have queued : (exec.step event).sleepers = exec.sleepers :=
        congrArg Dormitory.queue rests.dormitory
      rw [queued, lastCommand?, rests.silent]
      exact armed
  | ended quiet busy id ends dormitory silent =>
      have queued : (exec.step event).sleepers = exec.sleepers.erase id :=
        congrArg Dormitory.queue dormitory
      have left :=
        DeadlineQueue.erase_perm attentive.attuned.sound.distinct id
      rw [queued, lastCommand?, silent]
      -- Whoever is still queued was queued when the command was given.
      intro sleeper member
      exact armed sleeper (List.mem_of_mem_filter (left.mem_iff.mp member))
  | dozed quiet id deadline naps queue inserted dormitory commands =>
      have queued : (exec.step event).sleepers = queue :=
        congrArg Dormitory.queue dormitory
      rw [queued] at sound ⊢
      rw [lastCommand?, commands]
      have last : (queue.next?.toList.map Effect.armSleep).getLast? =
          queue.next?.map .armSleep := by
        cases queue.next? <;> rfl
      rw [last]
      exact (armed_next? sound).or command
  | roused now alarm busy dormitory commands =>
      rw [lastCommand?, commands]
      exact (armed_command sound).or command

theorem Attentive.armed_run (attentive : exec.Attentive)
    (armed : Armed command exec.sleepers) (events : List Event) :
    Armed ((lastCommand? (exec.trace events)).or command)
      (exec.run events).sleepers := by
  induction events generalizing exec command with
  | nil => exact armed
  | cons event rest ih =>
      have later :=
        ih (attentive.step event) (attentive.armed_step armed event)
      rw [trace, lastCommand?_append, Option.or_assoc]
      exact later

/-- After every event of a run, if anybody sleeps then the comparator has last
been set, and to no later a deadline than the earliest in the queue. -/
theorem comparator_armed (config : Configuration) (events : List Event)
    (occupied : ((boot config).run events).sleepers.toList ≠ []) :
    ∃ deadline, lastCommand? ((boot config).trace events) =
        some (.armSleep deadline) ∧
      ∀ sleeper ∈ ((boot config).run events).sleepers.toList,
        deadline ≤ sleeper.deadline := by
  have nobody : Armed none (boot config).sleepers := by
    intro sleeper member
    rw [sleepers_boot] at member
    cases member
  have armed := (attentive_boot config).armed_run nobody events
  rw [Option.or_none] at armed
  obtain ⟨first, member⟩ := List.exists_mem_of_ne_nil _ occupied
  obtain ⟨deadline, last, _⟩ := armed first member
  refine ⟨deadline, last, fun sleeper member => ?_⟩
  obtain ⟨other, same, early⟩ := armed sleeper member
  obtain rfl := Effect.armSleep.inj (Option.some.inj (last.symm.trans same))
  exact early

/-! Two processes sleep, and the one to be woken first is stopped: the
comparator stays set for it. -/

namespace EarlySleeperStopped

def config : Configuration where
  memoryBase := 0x48000000
  memorySize := 4 * pageSize
  lines := InterruptLines.unassigned
  idle := Context.zero
  exitLink := 0

def sleeping (now : Nat) (duration : UInt64) : Event :=
  .trap
    { cause := .synchronous
      frame := ⟨Context.zero.setArguments [duration],
        Syndrome.ofCall Syscall.sleep.number, 0⟩
      readings := ⟨none, now, [], (0, 0), TextScale.cell,
        UserMemory.zeroed 0 0⟩ }

def events : List Event :=
  [.spawn 0x1000 pageSize .user "early", .spawn 0x2000 pageSize .user "late",
    .start, sleeping 0 10, sleeping 5 100, .terminate ⟨1⟩]

end EarlySleeperStopped

open EarlySleeperStopped in
theorem comparator_armed_early_sleeper_stopped :
    ((boot config).run events).sleepers.toList = [⟨105, ⟨2⟩⟩] ∧
      lastCommand? ((boot config).trace events) = some (.armSleep 10) ∧
      ∃ deadline, lastCommand? ((boot config).trace events) =
          some (.armSleep deadline) ∧
        ∀ sleeper ∈ ((boot config).run events).sleepers.toList,
          deadline ≤ sleeper.deadline := by
  have queued :
      ((boot config).run events).sleepers.toList = [⟨105, ⟨2⟩⟩] := by
    decide +kernel
  refine ⟨queued, ?_, comparator_armed config events ?_⟩
  · decide +kernel
  · rw [queued]
    exact List.cons_ne_nil _ _

end Executive

end Nucleus
