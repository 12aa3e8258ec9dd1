import Nucleus.Proofs.Memory.Layout

namespace Nucleus

namespace Allocator

variable {memory : Allocator}

theorem allocate_eq_ok {size : Nat} {owner : ProcessId} {grant : Grant}
    (allocated : memory.allocate size owner = .ok grant) :
    ∃ placement, memory.Fits placement ∧
      grant = memory.grant placement owner := by
  unfold allocate at allocated
  cases placed : memory.place? size with
  | error cause => simp [placed] at allocated
  | ok placement =>
      simp only [placed, Except.ok.injEq] at allocated
      exact ⟨placement, fits_of_place? placed, allocated.symm⟩

theorem release_eq_ok {handle : RegionHandle} {owner : ProcessId}
    {after : Allocator} (released : memory.release handle owner = .ok after) :
    ∃ region, memory.Holds handle.slot region ∧ region.owner = owner ∧
      after = memory.vacate handle.slot := by
  simp only [release] at released
  split at released
  · cases released
  · cases content : memory.slots[handle.slot].region with
    | none => simp only [content, reduceCtorEq] at released
    | some region =>
        simp only [content] at released
        split at released
        · cases released
        · rename_i owned
          exact ⟨region, content, not_not.mp owned,
            (Except.ok.inj released).symm⟩

theorem find?_eq_some {base : Nat} {handle : RegionHandle} {region : Region}
    (found : memory.find? base = some (handle, region)) :
    memory.Holds handle.slot region ∧ region.base = base := by
  unfold find? slotAt? at found
  cases slotEquation : Slots.first? memory.slots (·.startsAt base) with
  | none => simp [slotEquation] at found
  | some slot =>
      have starts := Slots.accepts_of_first? slotEquation
      cases content : memory.slots[slot].region with
      | none =>
          simp only [slotEquation, content, Option.bind_eq_bind,
            Option.bind_some, Option.bind_none, reduceCtorEq] at found
      | some held =>
          simp only [slotEquation, content, Option.bind_eq_bind,
            Option.bind_some, Option.some.injEq, Prod.mk.injEq] at found
          obtain ⟨rfl, rfl⟩ := found
          refine ⟨content, ?_⟩
          simpa only [RegionSlot.startsAt, content, decide_eq_true_eq] using
            starts

theorem releaseAt_eq_ok {base : Nat} {owner : ProcessId} {after : Allocator}
    (released : memory.releaseAt base owner = .ok after) :
    ∃ slot region, memory.Holds slot region ∧ region.base = base ∧
      region.owner = owner ∧ after = memory.vacate slot := by
  unfold releaseAt at released
  cases found : memory.find? base with
  | none =>
      simp only [found] at released
      split at released <;> cases released
  | some entry =>
      obtain ⟨handle, region⟩ := entry
      simp only [found] at released
      obtain ⟨holds, starts⟩ := find?_eq_some found
      obtain ⟨held, heldHolds, owned, rfl⟩ := release_eq_ok released
      obtain rfl : region = held :=
        Option.some.inj (holds.symm.trans heldHolds)
      exact ⟨handle.slot, region, holds, starts, owned, rfl⟩

theorem Layout.foldl_vacate (layout : memory.Layout)
    (slots : List (Fin 128)) :
    (slots.foldl Allocator.vacate memory).Layout := by
  induction slots generalizing memory with
  | nil => exact layout
  | cons slot rest ih => exact ih (layout.vacate slot)

theorem slots_foldl_vacate_of_not_mem {slots : List (Fin 128)}
    {slot : Fin 128} (away : slot ∉ slots) :
    (slots.foldl vacate memory).slots[slot] = memory.slots[slot] := by
  induction slots generalizing memory with
  | nil => rfl
  | cons head rest ih =>
      obtain ⟨notHead, notRest⟩ := List.ne_and_not_mem_of_not_mem_cons away
      rw [List.foldl_cons, ih notRest, slots_vacate_of_ne notHead]

theorem not_holds_foldl_vacate {slots : List (Fin 128)} {slot : Fin 128}
    (member : slot ∈ slots) (region : Region) :
    ¬ (slots.foldl vacate memory).Holds slot region := by
  induction slots generalizing memory with
  | nil => cases member
  | cons head rest ih =>
      rw [List.foldl_cons]
      by_cases later : slot ∈ rest
      · exact ih later
      · obtain rfl : slot = head := by
          rcases List.mem_cons.mp member with here | there
          · exact here
          · exact absurd there later
        rw [Holds, slots_foldl_vacate_of_not_mem later, region_vacate_self]
        exact Option.some_ne_none region ∘ Eq.symm

theorem Layout.releaseOwnedBy (layout : memory.Layout) (owner : ProcessId) :
    (memory.releaseOwnedBy owner).1.Layout :=
  layout.foldl_vacate _

theorem mem_slotsOwnedBy {owner : ProcessId} {slot : Fin 128} :
    slot ∈ memory.slotsOwnedBy owner ↔
      ∃ region, memory.Holds slot region ∧ region.owner = owner := by
  simp only [slotsOwnedBy, Slots.mem_all, RegionSlot.isOwnedBy, Holds]
  cases content : memory.slots[slot].region <;> simp

theorem slots_releaseOwnedBy_of_not_owned {owner : ProcessId}
    {slot : Fin 128} {region : Region} (holds : memory.Holds slot region)
    (foreign : region.owner ≠ owner) :
    (memory.releaseOwnedBy owner).1.slots[slot] = memory.slots[slot] := by
  apply slots_foldl_vacate_of_not_mem
  rw [mem_slotsOwnedBy]
  rintro ⟨other, otherHolds, owned⟩
  obtain rfl : region = other :=
    Option.some.inj (holds.symm.trans otherHolds)
  exact foreign owned

theorem holds_releaseOwnedBy {owner : ProcessId} (slot : Fin 128)
    (region : Region) :
    (memory.releaseOwnedBy owner).1.Holds slot region ↔
      memory.Holds slot region ∧ region.owner ≠ owner := by
  by_cases owned : slot ∈ memory.slotsOwnedBy owner
  · obtain ⟨held, heldHolds, heldOwned⟩ := mem_slotsOwnedBy.mp owned
    constructor
    · intro holds
      exact absurd holds (not_holds_foldl_vacate owned region)
    · rintro ⟨holds, foreign⟩
      obtain rfl : region = held :=
        Option.some.inj (holds.symm.trans heldHolds)
      exact absurd heldOwned foreign
  · have same : (memory.releaseOwnedBy owner).1.Holds slot region ↔
        memory.Holds slot region := by
      rw [Holds, Holds]
      exact iff_of_eq (congrArg (·.region = some region)
        (slots_foldl_vacate_of_not_mem owned))
    rw [same, iff_self_and]
    intro holds isOwner
    exact owned (mem_slotsOwnedBy.mpr ⟨region, holds, isOwner⟩)

end Allocator

end Nucleus
