import Nucleus.Proofs.Memory.Release

/-!
Giving back everything that one owner has.  The regions of the owner are gone
and their pages are free; no other slot, page or handle notices.
-/

namespace Nucleus

namespace Allocator

variable {memory : Allocator} {owner : ProcessId} {region : Region}

theorem mem_ownedBy :
    region ∈ memory.ownedBy owner ↔
      ∃ slot, memory.Holds slot region ∧ region.owner = owner := by
  simp only [ownedBy, List.mem_filterMap, mem_slotsOwnedBy]
  constructor
  · rintro ⟨slot, ⟨held, holds, owned⟩, content⟩
    obtain rfl : held = region := Option.some.inj (holds.symm.trans content)
    exact ⟨slot, holds, owned⟩
  · rintro ⟨slot, holds, owned⟩
    exact ⟨slot, ⟨region, holds, owned⟩, holds⟩

theorem hasPage_congr {other : Allocator} {page : Nat}
    (same : other.window = memory.window) :
    other.HasPage region page ↔ memory.HasPage region page := by
  simp only [HasPage, firstPage, (Prod.mk.inj same).1]

theorem freePages_vacate (slot : Fin 128) :
    (memory.vacate slot).freePages =
      memory.freePages + memory.pagesAt slot := by
  cases content : memory.slots[slot].region with
  | none => rw [vacate_of_vacant content, pagesAt_of_vacant content]; rfl
  | some region =>
      rw [vacate_of_holds content, pagesAt_of_holds content]

theorem freePages_foldl_vacate {slots : List (Fin 128)}
    (distinct : slots.Nodup) :
    (slots.foldl vacate memory).freePages =
      memory.freePages + (slots.map memory.pagesAt).sum := by
  induction slots generalizing memory with
  | nil => rfl
  | cons slot rest ih =>
      obtain ⟨fresh, distinct⟩ := List.nodup_cons.mp distinct
      have others : rest.map (memory.vacate slot).pagesAt =
          rest.map memory.pagesAt := by
        apply List.map_congr_left
        intro other member
        apply pagesAt_vacate_of_ne
        exact ne_of_mem_of_not_mem member fresh
      rw [List.foldl_cons, ih distinct, others, freePages_vacate,
        List.map_cons, List.sum_cons, Nat.add_assoc]

theorem map_pages_ownedBy (memory : Allocator) (owner : ProcessId) :
    (memory.ownedBy owner).map Region.pages =
      (memory.slotsOwnedBy owner).map memory.pagesAt := by
  have owned : ∀ slot ∈ memory.slotsOwnedBy owner,
      ∃ region, memory.Holds slot region := by
    intro slot member
    obtain ⟨region, holds, _⟩ := mem_slotsOwnedBy.mp member
    exact ⟨region, holds⟩
  rw [ownedBy]
  generalize memory.slotsOwnedBy owner = slots at owned
  induction slots with
  | nil => rfl
  | cons slot rest ih =>
      obtain ⟨region, holds⟩ := owned slot List.mem_cons_self
      have content : memory.slots[slot].region = some region := holds
      have others := ih fun other member =>
        owned other (List.mem_cons_of_mem slot member)
      simp only [List.filterMap_cons, content, List.map_cons, others,
        pagesAt_of_holds holds]

/-- Exactly the regions of one owner are given back. -/
structure Forfeits (owner : ProcessId) (before after : Allocator) : Prop where
  window : after.window = before.window
  slots_eq : ∀ slot : Fin 128, after.slots[slot] =
    if before.slots[slot].isOwnedBy owner then
      ⟨none, before.slots[slot].generation + 1⟩
    else before.slots[slot]
  region?_eq : ∀ handle, after.region? handle =
    (before.region? handle).filter fun region => region.owner ≠ owner
  isTaken_iff : ∀ page, after.pages.isTaken page = true ↔
    before.pages.isTaken page = true ∧
      ∀ region ∈ before.ownedBy owner, ¬ before.HasPage region page
  freePages_eq : after.freePages =
    before.freePages + ((before.ownedBy owner).map Region.pages).sum

theorem slots_releaseOwnedBy (memory : Allocator) (owner : ProcessId)
    (slot : Fin 128) :
    (memory.releaseOwnedBy owner).1.slots[slot] =
      if memory.slots[slot].isOwnedBy owner then
        ⟨none, memory.slots[slot].generation + 1⟩
      else memory.slots[slot] := by
  have among : slot ∈ memory.slotsOwnedBy owner ↔
      memory.slots[slot].isOwnedBy owner = true := Slots.mem_all
  split
  · rename_i owned
    obtain ⟨region, holds, _⟩ := mem_slotsOwnedBy.mp (among.mpr owned)
    rw [← slots_vacate_self holds]
    exact slots_foldl_vacate_of_mem (nodup_slotsOwnedBy memory owner)
      (among.mpr owned)
  · rename_i foreign
    apply slots_foldl_vacate_of_not_mem
    exact fun member => foreign (among.mp member)

theorem region?_releaseOwnedBy_eq (memory : Allocator) (owner : ProcessId)
    (handle : RegionHandle) :
    (memory.releaseOwnedBy owner).1.region? handle =
      (memory.region? handle).filter fun region => region.owner ≠ owner := by
  ext region
  rw [region?_eq_some_iff, holds_releaseOwnedBy, Option.filter_eq_some_iff,
    region?_eq_some_iff, decide_eq_true_eq, ← and_assoc]
  apply and_congr_left
  intro foreign
  apply and_congr_left
  intro holds
  rw [slots_releaseOwnedBy_of_not_owned holds foreign]

theorem Layout.isTaken_releaseOwnedBy (layout : memory.Layout)
    (owner : ProcessId) (page : Nat) :
    (memory.releaseOwnedBy owner).1.pages.isTaken page = true ↔
      memory.pages.isTaken page = true ∧
        ∀ region ∈ memory.ownedBy owner, ¬ memory.HasPage region page := by
  have window := window_releaseOwnedBy memory owner
  rw [(layout.releaseOwnedBy owner).taken_iff, layout.taken_iff]
  constructor
  · rintro ⟨slot, region, stays, has⟩
    rw [hasPage_congr window] at has
    obtain ⟨holds, foreign⟩ := (holds_releaseOwnedBy slot region).mp stays
    refine ⟨⟨slot, region, holds, has⟩, fun other member => ?_⟩
    obtain ⟨otherSlot, otherHolds, owned⟩ := mem_ownedBy.mp member
    refine layout.apart slot otherSlot region other ?_ holds otherHolds page
      has
    rintro rfl
    obtain rfl : region = other :=
      Option.some.inj (holds.symm.trans otherHolds)
    exact foreign owned
  · rintro ⟨⟨slot, region, holds, has⟩, spared⟩
    refine ⟨slot, region, (holds_releaseOwnedBy slot region).mpr
      ⟨holds, fun owned => ?_⟩, (hasPage_congr window).mpr has⟩
    exact spared region (mem_ownedBy.mpr ⟨slot, holds, owned⟩) has

theorem Layout.forfeits (layout : memory.Layout) (owner : ProcessId) :
    Forfeits owner memory (memory.releaseOwnedBy owner).1 where
  window := window_releaseOwnedBy memory owner
  slots_eq := slots_releaseOwnedBy memory owner
  region?_eq := region?_releaseOwnedBy_eq memory owner
  isTaken_iff := layout.isTaken_releaseOwnedBy owner
  freePages_eq := by
    rw [map_pages_ownedBy]
    exact freePages_foldl_vacate (nodup_slotsOwnedBy memory owner)

end Allocator

end Nucleus
