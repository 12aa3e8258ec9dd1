import Mathlib.Data.List.Nodup
import Nucleus.Proofs.Process.Heap

/-!
The deadline queue as a finite map from processes to deadlines.  In a sound
queue every operation has one equation on the map, and the entry in front has
the earliest deadline.
-/

namespace Nucleus

namespace DeadlineQueue

def ids (queue : DeadlineQueue) : List ProcessId :=
  queue.toList.map (·.id)

/-- When a process is to be woken. -/
def deadline? (queue : DeadlineQueue) (id : ProcessId) : Option Nat :=
  (queue.toList.find? fun sleeper => sleeper.id = id).map (·.deadline)

structure Sound (queue : DeadlineQueue) : Prop where
  ordered : Ordered queue.entries
  distinct : queue.ids.Nodup
  small : queue.length ≤ capacity

theorem sound_empty : empty.Sound where
  ordered := fun _ _ inside => absurd inside (Nat.not_lt_zero _)
  distinct := List.nodup_nil
  small := Nat.zero_le _

variable {queue after : DeadlineQueue} {id : ProcessId} {deadline now : Nat}

theorem mem_of_deadline? (waits : queue.deadline? id = some deadline) :
    ⟨deadline, id⟩ ∈ queue.toList := by
  rw [deadline?, Option.map_eq_some_iff] at waits
  obtain ⟨sleeper, found, rfl⟩ := waits
  have named := List.find?_some found
  rw [decide_eq_true_eq] at named
  rw [← named]
  exact List.mem_of_find?_eq_some found

theorem deadline?_eq_none_iff :
    queue.deadline? id = none ↔ id ∉ queue.ids := by
  simp [deadline?, ids, Option.map_eq_none_iff, List.find?_eq_none]

theorem eq_of_mem (distinct : queue.ids.Nodup) {first second : Sleeper}
    (firstIn : first ∈ queue.toList) (secondIn : second ∈ queue.toList)
    (same : first.id = second.id) : first = second :=
  List.inj_on_of_nodup_map distinct firstIn secondIn same

theorem deadline?_eq_some_iff (distinct : queue.ids.Nodup) :
    queue.deadline? id = some deadline ↔ ⟨deadline, id⟩ ∈ queue.toList := by
  refine ⟨mem_of_deadline?, fun member => ?_⟩
  cases waits : queue.deadline? id with
  | none =>
      rw [deadline?_eq_none_iff] at waits
      exact absurd (List.mem_map_of_mem member) waits
  | some other =>
      have same := eq_of_mem distinct (mem_of_deadline? waits) member rfl
      rw [(Sleeper.mk.inj same).1]

theorem erase_perm (distinct : queue.ids.Nodup) (id : ProcessId) :
    (queue.erase id).toList.Perm
      (queue.toList.filter fun sleeper => sleeper.id ≠ id) := by
  unfold erase
  cases found : queue.entries.findFinIdx? fun sleeper => sleeper.id == id with
  | none =>
      rw [Array.findFinIdx?_eq_none_iff] at found
      rw [List.filter_eq_self.mpr]
      intro sleeper member
      have away := found sleeper (Array.mem_def.mpr member)
      simpa using away
  | some index =>
      obtain ⟨named, _⟩ := Array.findFinIdx?_eq_some_iff.mp found
      rw [beq_iff_eq] at named
      have split := removeAt_perm index.isLt
      have rest := (split.map Sleeper.id).nodup_iff.mpr distinct
      rw [List.map_cons, List.nodup_cons] at rest
      have kept := split.filter fun sleeper => sleeper.id ≠ id
      rw [List.filter_cons_of_neg (by simpa using named),
        List.filter_eq_self.mpr] at kept
      · exact kept
      · intro sleeper member
        rw [decide_eq_true_eq]
        rintro rfl
        exact rest.1 (named ▸ List.mem_map_of_mem member)

theorem length_erase_le (distinct : queue.ids.Nodup) (id : ProcessId) :
    (queue.erase id).length ≤ queue.length :=
  (erase_perm distinct id).length_eq.trans_le (List.length_filter_le _ _)

theorem erase_eq (queue : DeadlineQueue) (id : ProcessId) :
    queue.erase id = queue ∨
      ∃ index, queue.erase id = ⟨removeAt queue.entries index⟩ := by
  unfold erase
  split
  · exact Or.inr ⟨_, rfl⟩
  · exact Or.inl rfl

theorem Sound.erase (sound : queue.Sound) (id : ProcessId) :
    (queue.erase id).Sound := by
  have perm := erase_perm sound.distinct id
  have kept : ((queue.toList.filter fun sleeper => sleeper.id ≠ id).map
      Sleeper.id).Nodup :=
    sound.distinct.sublist (List.filter_sublist.map Sleeper.id)
  constructor
  · rcases erase_eq queue id with same | ⟨index, same⟩
    · rw [same]
      exact sound.ordered
    · rw [same]
      exact sound.ordered.removeAt index
  · exact (perm.map Sleeper.id).nodup_iff.mpr kept
  · exact (length_erase_le sound.distinct id).trans sound.small

theorem Sound.deadline?_eq (sound : queue.Sound) {waiting : Option Nat}
    (same : ∀ deadline, ⟨deadline, id⟩ ∈ queue.toList ↔
      waiting = some deadline) : queue.deadline? id = waiting := by
  ext deadline
  rw [deadline?_eq_some_iff sound.distinct]
  exact same deadline

theorem Sound.deadline?_erase (sound : queue.Sound) (id other : ProcessId) :
    (queue.erase id).deadline? other =
      if other = id then none else queue.deadline? other := by
  apply (sound.erase id).deadline?_eq
  intro deadline
  rw [(erase_perm sound.distinct id).mem_iff, List.mem_filter,
    decide_eq_true_eq, ← deadline?_eq_some_iff sound.distinct]
  by_cases here : other = id <;> simp [here]

theorem insert?_eq_none_iff :
    queue.insert? id deadline = none ↔ (queue.erase id).length = capacity := by
  simp [insert?]

theorem Ordered.push {entries : Array Sleeper} (ordered : Ordered entries)
    (sleeper : Sleeper) : Rising (entries.push sleeper) entries.size := by
  constructor
  · intro child positive away upperInside lowerInside
    have inside : child < entries.size := by
      rw [Array.size_push] at lowerInside
      omega
    have upper : parent child < entries.size := by
      unfold parent
      omega
    rw [Array.getElem_push_lt upper, Array.getElem_push_lt inside]
    exact ordered child positive upper inside
  · intro child _ positive below upperInside lowerInside
    rw [Array.size_push] at lowerInside
    unfold parent at below
    omega

theorem insert?_perm (inserted : queue.insert? id deadline = some after) :
    after.toList.Perm (⟨deadline, id⟩ :: (queue.erase id).toList) := by
  simp only [insert?] at inserted
  split at inserted
  · cases inserted
  · obtain rfl := Option.some.inj inserted
    refine (siftUp_perm _ _).toList.trans ?_
    rw [Array.toList_push]
    exact List.perm_append_singleton _ _

theorem Sound.insert (sound : queue.Sound)
    (inserted : queue.insert? id deadline = some after) : after.Sound := by
  have erased := sound.erase id
  have perm := insert?_perm inserted
  have gone : id ∉ (queue.erase id).ids := by
    rw [← deadline?_eq_none_iff, sound.deadline?_erase, if_pos rfl]
  constructor
  · simp only [insert?] at inserted
    split at inserted
    · cases inserted
    · obtain rfl := Option.some.inj inserted
      exact (erased.ordered.push _).ordered_siftUp
  · exact (perm.map Sleeper.id).nodup_iff.mpr
      (List.nodup_cons.mpr ⟨gone, erased.distinct⟩)
  · have full : (queue.erase id).length ≠ capacity := by
      rw [ne_eq, ← insert?_eq_none_iff, inserted]
      exact Option.some_ne_none _
    have length : after.length = (queue.erase id).length + 1 :=
      perm.length_eq
    have small := erased.small
    omega

theorem Sound.deadline?_insert (sound : queue.Sound)
    (inserted : queue.insert? id deadline = some after)
    (other : ProcessId) :
    after.deadline? other =
      if other = id then some deadline else queue.deadline? other := by
  apply (sound.insert inserted).deadline?_eq
  intro late
  rw [(insert?_perm inserted).mem_iff, List.mem_cons,
    ← deadline?_eq_some_iff (sound.erase id).distinct, sound.deadline?_erase,
    Sleeper.mk.injEq]
  by_cases here : other = id
  · simp [here, eq_comm]
  · simp [here]

theorem Sound.front_notAfter (sound : queue.Sound) {first sleeper : Sleeper}
    (front : queue.entries[0]? = some first)
    (member : sleeper ∈ queue.toList) : first.NotAfter sleeper := by
  obtain ⟨inside, rfl⟩ := Array.getElem?_eq_some_iff.mp front
  obtain ⟨index, held, rfl⟩ := List.getElem_of_mem member
  exact sound.ordered.notAfter_first held

theorem next?_eq_none_iff : queue.next? = none ↔ queue.toList = [] := by
  simp [next?, toList]

theorem Sound.next?_le (sound : queue.Sound) {earliest : Nat}
    (front : queue.next? = some earliest)
    (waits : queue.deadline? id = some deadline) : earliest ≤ deadline := by
  rw [next?, Option.map_eq_some_iff] at front
  obtain ⟨first, found, rfl⟩ := front
  exact (sound.front_notAfter found (mem_of_deadline? waits)).deadline_le

theorem popExpired?_perm {first : Sleeper}
    (popped : queue.popExpired? now = some (first, after)) :
    first.deadline ≤ now ∧ queue.toList.Perm (first :: after.toList) := by
  unfold popExpired? at popped
  split at popped
  · rename_i front found
    split at popped
    · rename_i expired
      obtain ⟨rfl, rfl⟩ := Prod.mk.inj (Option.some.inj popped)
      obtain ⟨inside, rfl⟩ := Array.getElem?_eq_some_iff.mp found
      exact ⟨expired, (removeAt_perm inside).symm⟩
    · cases popped
  · cases popped

theorem Sound.popExpired? (sound : queue.Sound) {first : Sleeper}
    (popped : queue.popExpired? now = some (first, after)) : after.Sound := by
  have perm := (popExpired?_perm popped).2
  have ids := (perm.map Sleeper.id).nodup_iff.mp sound.distinct
  constructor
  · unfold DeadlineQueue.popExpired? at popped
    split at popped
    · split at popped
      · obtain ⟨_, rfl⟩ := Prod.mk.inj (Option.some.inj popped)
        exact sound.ordered.removeAt 0
      · cases popped
    · cases popped
  · exact (List.nodup_cons.mp ids).2
  · have length : queue.length = after.length + 1 := perm.length_eq
    have small := sound.small
    omega

/-- As long as the first entry has not expired, none has. -/
theorem Sound.lt_of_popExpired? (sound : queue.Sound)
    (popped : queue.popExpired? now = none) {sleeper : Sleeper}
    (member : sleeper ∈ queue.toList) : now < sleeper.deadline := by
  unfold DeadlineQueue.popExpired? at popped
  split at popped
  · rename_i front found
    split at popped
    · cases popped
    · have early := (sound.front_notAfter found member).deadline_le
      omega
  · rename_i missing
    have none : queue.next? = none := by rw [next?, missing]; rfl
    rw [next?_eq_none_iff.mp none] at member
    cases member

theorem Sound.takeExpired (sound : queue.Sound) (now : Nat) {limit : Nat}
    (enough : queue.length ≤ limit) :
    (queue.takeExpired now limit).2.Sound ∧
    (queue.takeExpired now limit).1.Perm
      ((queue.toList.filter fun sleeper => sleeper.deadline ≤ now).map
        Sleeper.id) ∧
    (queue.takeExpired now limit).2.toList.Perm
      (queue.toList.filter fun sleeper => ¬ sleeper.deadline ≤ now) := by
  -- The limit never cuts the loop short: every turn takes one entry away.
  induction limit generalizing queue with
  | zero =>
      have nobody : queue.toList = [] :=
        List.eq_nil_of_length_eq_zero (Nat.le_zero.mp enough)
      rw [DeadlineQueue.takeExpired, nobody]
      exact ⟨sound, .nil, .nil⟩
  | succ limit ih =>
      rw [DeadlineQueue.takeExpired]
      cases popped : queue.popExpired? now with
      | none =>
          have late : ∀ sleeper ∈ queue.toList, ¬ sleeper.deadline ≤ now :=
            fun sleeper member =>
              Nat.not_le.mpr (sound.lt_of_popExpired? popped member)
          refine ⟨sound, ?_, ?_⟩
          · rw [List.filter_eq_nil_iff.mpr (by simpa using late)]
            exact .nil
          · rw [List.filter_eq_self.mpr (by simpa using late)]
      | some taken =>
          obtain ⟨first, rest⟩ := taken
          obtain ⟨due, perm⟩ := popExpired?_perm popped
          have shorter : queue.length = rest.length + 1 := perm.length_eq
          obtain ⟨restSound, expired, left⟩ :=
            ih (sound.popExpired? popped) (by omega)
          refine ⟨restSound, ?_, ?_⟩
          · have split :=
              (perm.filter fun sleeper => sleeper.deadline ≤ now).map
                Sleeper.id
            rw [List.filter_cons_of_pos (by simpa using due)] at split
            exact (expired.cons first.id).trans split.symm
          · have split := perm.filter fun sleeper => ¬ sleeper.deadline ≤ now
            rw [List.filter_cons_of_neg (by simpa using due)] at split
            exact left.trans split.symm

section Drain

theorem Sound.drainExpired (sound : queue.Sound) (now : Nat) :
    (queue.drainExpired now).2.Sound :=
  (sound.takeExpired now (Nat.le_refl _)).1

theorem Sound.nodup_drainExpired (sound : queue.Sound) (now : Nat) :
    (queue.drainExpired now).1.Nodup := by
  refine (sound.takeExpired now (Nat.le_refl _)).2.1.nodup_iff.mpr ?_
  exact sound.distinct.sublist (List.filter_sublist.map Sleeper.id)

theorem Sound.mem_drainExpired (sound : queue.Sound) :
    id ∈ (queue.drainExpired now).1 ↔
      ∃ deadline, queue.deadline? id = some deadline ∧ deadline ≤ now := by
  have perm := (sound.takeExpired now (Nat.le_refl _)).2.1
  refine perm.mem_iff.trans ?_
  simp only [List.mem_map, List.mem_filter, decide_eq_true_eq,
    deadline?_eq_some_iff sound.distinct]
  constructor
  · rintro ⟨sleeper, ⟨member, due⟩, rfl⟩
    exact ⟨sleeper.deadline, member, due⟩
  · rintro ⟨deadline, member, due⟩
    exact ⟨_, ⟨member, due⟩, rfl⟩

theorem Sound.deadline?_drainExpired (sound : queue.Sound) (now : Nat)
    (id : ProcessId) :
    (queue.drainExpired now).2.deadline? id =
      (queue.deadline? id).filter fun deadline => ¬ deadline ≤ now := by
  apply (sound.drainExpired now).deadline?_eq
  intro deadline
  have perm := (sound.takeExpired now (Nat.le_refl _)).2.2
  refine perm.mem_iff.trans ?_
  rw [List.mem_filter, ← deadline?_eq_some_iff sound.distinct,
    Option.filter_eq_some_iff]

end Drain

end DeadlineQueue

end Nucleus
