import Nucleus.Proofs.Memory.Outcome
import Nucleus.Proofs.Process.Change
import Nucleus.Proofs.Process.Identity

namespace Nucleus

open Allocator (fits_of_place?)

namespace ProcessTable

variable {table : ProcessTable}

theorem WellFormed.slotForNew?_eq_some (wellFormed : table.WellFormed)
    {slot : Fin 16} {used : Nat}
    (found : table.slotForNew? = some (slot, used)) :
    table.slots[slot].isLive = false ∧ table.used ≤ used ∧
      used ≤ capacity ∧ slot.val < used := by
  unfold slotForNew? at found
  split at found
  · rename_i grows
    obtain ⟨rfl, rfl⟩ := Prod.mk.inj (Option.some.inj found)
    refine ⟨?_, Nat.le_succ _, grows, Nat.lt_succ_self _⟩
    rw [Bool.eq_false_iff]
    intro live
    exact absurd (wellFormed.below _ live) (Nat.lt_irrefl _)
  · rename_i full
    rw [Option.map_eq_some_iff] at found
    obtain ⟨first, firstFound, same⟩ := found
    obtain ⟨rfl, rfl⟩ := Prod.mk.inj same
    have stopped := Slots.accepts_of_first? firstFound
    refine ⟨?_, Nat.le_refl _, wellFormed.used_le, ?_⟩
    · rw [Process.isLive, beq_iff_eq.mp stopped]
      rfl
    · exact Nat.lt_of_lt_of_le first.isLt (Nat.not_lt.mp full)

def seat (table : ProcessTable) (slot : Fin 16) (process : Process)
    (used : Nat) (nextId : UInt16) : ProcessTable :=
  { table with
    slots := Slots.write table.slots slot process
    used := used
    live := table.live + 1
    nextId := nextId }

section Seat

variable {slot : Fin 16} {process : Process} {used : Nat} {nextId : UInt16}

theorem slots_seat (other : Fin 16) :
    (table.seat slot process used nextId).slots[other] =
      if other = slot then process else table.slots[other] :=
  Slots.get_write _ _ _ _

theorem slots_seat_self :
    (table.seat slot process used nextId).slots[slot] = process := by
  rw [slots_seat, if_pos rfl]

theorem slots_seat_of_ne {other : Fin 16} (away : other ≠ slot) :
    (table.seat slot process used nextId).slots[other] =
      table.slots[other] := by
  rw [slots_seat, if_neg away]

theorem live_seat {other : Fin 16}
    (live : (table.seat slot process used nextId).slots[other].isLive =
      true) :
    other = slot ∨ (other ≠ slot ∧ table.slots[other].isLive = true) := by
  by_cases here : other = slot
  · exact Or.inl here
  · rw [slots_seat_of_ne here] at live
    exact Or.inr ⟨here, live⟩

theorem Free.id_ne {id : ProcessId} (free : table.Free id)
    (wellFormed : table.WellFormed) {other : Fin 16}
    (live : table.slots[other].isLive = true) :
    table.slots[other].id ≠ id := by
  intro same
  have found := wellFormed.slotOf?_of_live live
  rw [same, free.2] at found
  cases found

theorem WellFormed.seat (wellFormed : table.WellFormed)
    (vacant : table.slots[slot].isLive = false)
    (grows : table.used ≤ used) (small : used ≤ capacity)
    (inside : slot.val < used) (free : table.Free process.id)
    (ready : process.state = .ready) (unfocused : process.focused = false) :
    (table.seat slot process used nextId).WellFormed := by
  have live : process.isLive = true := by
    rw [Process.isLive, ready]
    rfl
  constructor
  · intro other stopped
    by_cases here : other = slot
    · rw [here, slots_seat_self, live] at stopped
      cases stopped
    · rw [slots_seat_of_ne here] at stopped ⊢
      exact wellFormed.vacant other stopped
  · exact small
  · intro other otherLive
    rcases live_seat otherLive with rfl | ⟨_, wasLive⟩
    · exact inside
    · exact Nat.lt_of_lt_of_le (wellFormed.below other wasLive) grows
  · intro other otherLive
    rcases live_seat otherLive with rfl | ⟨away, wasLive⟩
    · rw [slots_seat_self]
      exact free.1
    · rw [slots_seat_of_ne away]
      exact wellFormed.named other wasLive
  · intro first second firstLive secondLive same
    rcases live_seat firstLive with rfl | ⟨firstAway, firstWas⟩ <;>
      rcases live_seat secondLive with rfl | ⟨secondAway, secondWas⟩
    · rfl
    · rw [slots_seat_self, slots_seat_of_ne secondAway] at same
      exact absurd same.symm (free.id_ne wellFormed secondWas)
    · rw [slots_seat_self, slots_seat_of_ne firstAway] at same
      exact absurd same (free.id_ne wellFormed firstWas)
    · rw [slots_seat_of_ne firstAway, slots_seat_of_ne secondAway] at same
      exact wellFormed.distinct first second firstWas secondWas same
  · have away : ∀ other : Fin 16,
        (table.seat slot process used nextId).slots[other].focused = true →
          other ≠ slot ∧ table.slots[other].focused = true := by
      intro other focused
      by_cases here : other = slot
      · rw [here, slots_seat_self, unfocused] at focused
        cases focused
      · rw [slots_seat_of_ne here] at focused
        exact ⟨here, focused⟩
    intro first second firstFocused secondFocused
    exact wellFormed.focus_unique first second (away first firstFocused).2
      (away second secondFocused).2
  · intro other pointed
    exact Nat.lt_of_lt_of_le (wellFormed.cursor_below other pointed) grows
  · have exchanged :=
      Slots.length_all_set table.slots (·.isLive) slot process
    have counted := wellFormed.counted
    rw [vacant, live, Bool.toNat_false, Bool.toNat_true] at exchanged
    rw [liveSlots] at counted ⊢
    exact (congrArg (· + 1) counted).trans exchanged.symm
  · intro other pointed
    have otherLive := wellFormed.current_live other pointed
    rw [slots_seat]
    split
    · exact live
    · exact otherLive
  · intro other running
    by_cases here : other = slot
    · rw [here, slots_seat_self, Process.isRunning, ready] at running
      cases running
    · rw [slots_seat_of_ne here] at running
      exact wellFormed.running_current other running

theorem Settled.seat (settled : table.Settled)
    (vacant : table.slots[slot].isLive = false) :
    (table.seat slot process used nextId).Settled := by
  intro other pointed
  have running := settled other pointed
  have away : other ≠ slot := by
    rintro rfl
    rw [Process.isRunning, beq_iff_eq] at running
    rw [Process.isLive, running] at vacant
    cases vacant
  rw [slots_seat_of_ne away]
  exact running

end Seat

/-- Giving up a slot makes up for having taken it, in both phases. -/
theorem cancel_of_slotForNew? {slot : Fin 16} {used : Nat}
    (found : table.slotForNew? = some (slot, used)) (nextId : UInt16) :
    ({ table with used := used, nextId := nextId } : ProcessTable).cancel
        (decide (table.used < used)) =
      { table with nextId := nextId } := by
  unfold slotForNew? at found
  split at found
  · obtain ⟨_, rfl⟩ := Prod.mk.inj (Option.some.inj found)
    rw [decide_eq_true (Nat.lt_succ_self _)]
    rfl
  · obtain ⟨_, _, same⟩ := Option.map_eq_some_iff.mp found
    obtain ⟨_, rfl⟩ := Prod.mk.inj same
    rw [decide_eq_false (Nat.lt_irrefl _)]
    rfl

theorem create_cases (table : ProcessTable) (memory : Allocator)
    (request : SpawnRequest) :
    (∃ cause nextId, table.create memory request =
      ⟨{ table with nextId := nextId }, memory, .error cause⟩) ∨
    (∃ slot used placement, table.slotForNew? = some (slot, used) ∧
      memory.place? request.stackSize = .ok placement ∧
      table.create memory request =
        ⟨table.seat slot
            (newProcess request table.newId
              (memory.grant placement table.newId).handle
              (memory.grant placement table.newId).region)
            used (table.newId.raw + 1),
          (memory.grant placement table.newId).memory,
          .ok (table.newId, slot)⟩) := by
  unfold create
  split
  · left
    exact ⟨_, table.nextId, rfl⟩
  · cases found : table.slotForNew? with
    | none =>
        left
        exact ⟨_, table.nextId, rfl⟩
    | some choice =>
        obtain ⟨slot, used⟩ := choice
        dsimp only
        rw [newId_reserve]
        cases placed : memory.place? request.stackSize with
        | error cause =>
            left
            refine ⟨.noStack cause, table.newId.raw + 1, ?_⟩
            exact congrArg (Creation.mk · memory _)
              (cancel_of_slotForNew? found _)
        | ok placement =>
            right
            exact ⟨slot, used, placement, rfl, rfl, rfl⟩

theorem WellFormed.create (wellFormed : table.WellFormed)
    (memory : Allocator) (request : SpawnRequest) :
    (table.create memory request).table.WellFormed := by
  rcases create_cases table memory request with
    ⟨cause, nextId, same⟩ | ⟨slot, used, placement, found, _, same⟩
  · rw [same]
    exact { wellFormed with }
  · rw [same]
    obtain ⟨vacant, grows, small, inside⟩ :=
      wellFormed.slotForNew?_eq_some found
    exact wellFormed.seat vacant grows small inside (newId_free vacant) rfl rfl

theorem WellFormed.settled_create (wellFormed : table.WellFormed)
    (settled : table.Settled) (memory : Allocator) (request : SpawnRequest) :
    (table.create memory request).table.Settled := by
  rcases create_cases table memory request with
    ⟨cause, nextId, same⟩ | ⟨slot, used, placement, found, _, same⟩
  · rw [same]
    exact settled
  · rw [same]
    exact settled.seat (wellFormed.slotForNew?_eq_some found).1

section Clear

variable {memory : Allocator} {slot : Fin 16}

theorem slots_clearSlot (other : Fin 16) :
    (table.clearSlot memory slot).table.slots[other] =
      if other = slot then Process.vacant else table.slots[other] :=
  Slots.get_write _ _ _ _

/-- Where something is left, nothing has changed. -/
theorem slots_clearSlot_of_live {other : Fin 16}
    (live : (table.clearSlot memory slot).table.slots[other].isLive = true) :
    other ≠ slot ∧
      (table.clearSlot memory slot).table.slots[other] =
        table.slots[other] := by
  rw [slots_clearSlot] at live ⊢
  split at live
  · cases live
  · rename_i away
    exact ⟨away, if_neg away⟩

theorem current_clearSlot {other : Fin 16}
    (pointed : (table.clearSlot memory slot).table.current = some other) :
    other ≠ slot ∧ table.current = some other := by
  simp only [clearSlot] at pointed
  split at pointed
  · cases pointed
  · rename_i away
    refine ⟨?_, pointed⟩
    rintro rfl
    exact away pointed

theorem WellFormed.clearSlot (wellFormed : table.WellFormed)
    (memory : Allocator) (live : table.slots[slot].isLive = true) :
    (table.clearSlot memory slot).table.WellFormed := by
  constructor
  · intro other stopped
    rw [slots_clearSlot] at stopped ⊢
    by_cases here : other = slot
    · rw [if_pos here]
    · rw [if_neg here] at stopped ⊢
      exact wellFormed.vacant other stopped
  · exact wellFormed.used_le
  · intro other otherLive
    rw [(slots_clearSlot_of_live otherLive).2] at otherLive
    exact wellFormed.below other otherLive
  · intro other otherLive
    have same := (slots_clearSlot_of_live otherLive).2
    rw [same] at otherLive ⊢
    exact wellFormed.named other otherLive
  · intro first second firstLive secondLive equal
    have firstSame := (slots_clearSlot_of_live firstLive).2
    have secondSame := (slots_clearSlot_of_live secondLive).2
    rw [firstSame] at firstLive equal
    rw [secondSame] at secondLive equal
    exact wellFormed.distinct first second firstLive secondLive equal
  · have kept : ∀ other : Fin 16,
        (table.clearSlot memory slot).table.slots[other].focused = true →
          table.slots[other].focused = true := by
      intro other focused
      rw [slots_clearSlot] at focused
      split at focused
      · cases focused
      · exact focused
    intro first second firstFocused secondFocused
    exact wellFormed.focus_unique first second (kept first firstFocused)
      (kept second secondFocused)
  · exact wellFormed.cursor_below
  · have exchanged :=
      Slots.length_all_set table.slots (·.isLive) slot Process.vacant
    have counted := wellFormed.counted
    rw [live, Process.isLive_vacant, Bool.toNat_false,
      Bool.toNat_true] at exchanged
    rw [liveSlots] at counted ⊢
    change table.live - 1 = _
    rw [counted]
    exact Nat.sub_eq_of_eq_add exchanged.symm
  · intro other pointed
    obtain ⟨away, wasPointed⟩ := current_clearSlot pointed
    rw [slots_clearSlot, if_neg away]
    exact wellFormed.current_live other wasPointed
  · intro other running
    rw [slots_clearSlot] at running
    split at running
    · cases running
    · rename_i away
      have pointed := wellFormed.running_current other running
      have elsewhere : table.current ≠ some slot := by
        rw [pointed]
        exact fun same => away (Option.some.inj same)
      exact (if_neg elsewhere).trans pointed

theorem Settled.clearSlot (settled : table.Settled) (memory : Allocator)
    (slot : Fin 16) :
    (table.clearSlot memory slot).table.Settled := by
  intro other pointed
  obtain ⟨away, wasPointed⟩ := current_clearSlot pointed
  rw [slots_clearSlot, if_neg away]
  exact settled other wasPointed

end Clear

end ProcessTable

end Nucleus
