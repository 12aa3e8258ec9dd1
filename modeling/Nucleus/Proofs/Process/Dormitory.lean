import Mathlib.Data.Set.Insert
import Nucleus.Proofs.Process.Agenda

/-!
The deadline queue together with those who sleep.  The two are attuned when the
queue holds exactly the sleepers; whoever leaves one has to leave the other.
-/

namespace Nucleus

structure Dormitory where
  queue : DeadlineQueue
  asleep : Set ProcessId

namespace Dormitory

/-- The process is gone, asleep or not. -/
def without (dormitory : Dormitory) (id : ProcessId) : Dormitory where
  queue := dormitory.queue.erase id
  asleep := dormitory.asleep \ {id}

/-- Everybody who is due has left. -/
def roused (dormitory : Dormitory) (now : Nat) : Dormitory where
  queue := (dormitory.queue.drainExpired now).2
  asleep := {id | id ∈ dormitory.asleep ∧
    id ∉ (dormitory.queue.drainExpired now).1}

structure Attuned (dormitory : Dormitory) : Prop where
  sound : dormitory.queue.Sound
  queued_iff : ∀ id, dormitory.queue.deadline? id ≠ none ↔
    id ∈ dormitory.asleep

variable {dormitory : Dormitory} {id : ProcessId} {deadline now : Nat}

theorem attuned_empty : Attuned ⟨DeadlineQueue.empty, ∅⟩ :=
  ⟨DeadlineQueue.sound_empty, fun _ => ⟨fun queued => queued rfl, False.elim⟩⟩

theorem Attuned.mem_asleep (attuned : dormitory.Attuned)
    (waits : dormitory.queue.deadline? id = some deadline) :
    id ∈ dormitory.asleep := by
  rw [← attuned.queued_iff, waits]
  exact Option.some_ne_none deadline

theorem Attuned.mem_ids_iff (attuned : dormitory.Attuned)
    (id : ProcessId) :
    id ∈ dormitory.queue.ids ↔ id ∈ dormitory.asleep := by
  rw [← attuned.queued_iff, ne_eq, DeadlineQueue.deadline?_eq_none_iff,
    not_not]

theorem Attuned.without (attuned : dormitory.Attuned) (id : ProcessId) :
    (dormitory.without id).Attuned := by
  refine ⟨attuned.sound.erase id, fun other => ?_⟩
  have equation := attuned.sound.deadline?_erase id other
  rw [Dormitory.without, equation, Set.mem_sdiff, ← attuned.queued_iff]
  by_cases here : other = id <;> simp [here]

theorem Attuned.admit (attuned : dormitory.Attuned) {queue : DeadlineQueue}
    (inserted : dormitory.queue.insert? id deadline = some queue) :
    Attuned ⟨queue, insert id dormitory.asleep⟩ := by
  refine ⟨attuned.sound.insert inserted, fun other => ?_⟩
  have equation := attuned.sound.deadline?_insert inserted other
  dsimp only
  rw [equation, Set.mem_insert_iff, ← attuned.queued_iff]
  by_cases here : other = id <;> simp [here]

theorem Attuned.mem_roused_iff (attuned : dormitory.Attuned)
    (id : ProcessId) :
    id ∈ (dormitory.roused now).asleep ↔
      ∃ deadline, dormitory.queue.deadline? id = some deadline ∧
        now < deadline := by
  rw [Dormitory.roused, Set.mem_ofPred_eq, ← attuned.queued_iff,
    attuned.sound.mem_drainExpired]
  cases dormitory.queue.deadline? id <;> simp

theorem Attuned.roused (attuned : dormitory.Attuned) (now : Nat) :
    (dormitory.roused now).Attuned := by
  refine ⟨attuned.sound.drainExpired now, fun other => ?_⟩
  have equation := attuned.sound.deadline?_drainExpired now other
  rw [attuned.mem_roused_iff, Dormitory.roused, equation]
  cases dormitory.queue.deadline? other <;> simp

end Dormitory

end Nucleus
