import Nucleus.Proofs.Memory.Generation

/-!
Releases by address.  At most one live region starts at an address, so an
address names it as well as its handle does.  What comes of giving it back is
decided by who owns it, and where no region starts, by the address alone.
-/

namespace Nucleus

namespace Allocator

variable {memory after : Allocator} {slot other : Fin 128} {base : Nat}
  {region otherRegion : Region} {owner : ProcessId}

/-- A live region starts at an address. -/
def Starts (memory : Allocator) (base : Nat) : Prop :=
  ∃ slot region, memory.Holds slot region ∧ region.base = base

/-- Where the window lies: its base, and how many pages it has. -/
def window (memory : Allocator) : Nat × Nat :=
  (memory.windowBase, memory.totalPages)

theorem window_vacate : (memory.vacate slot).window = memory.window :=
  Prod.ext windowBase_vacate totalPages_vacate

theorem window_releaseOwnedBy (memory : Allocator) (owner : ProcessId) :
    (memory.releaseOwnedBy owner).1.window = memory.window := by
  unfold releaseOwnedBy
  generalize memory.slotsOwnedBy owner = slots
  induction slots generalizing memory with
  | nil => rfl
  | cons slot rest ih => exact (ih (memory.vacate slot)).trans window_vacate

theorem window_after (memory : Allocator) (request : MemoryRequest) :
    (memory.after request).window = memory.window := by
  cases request with
  | allocate size owner =>
      cases outcome : memory.allocate size owner with
      | error cause => simp only [after, outcome]
      | ok grant =>
          obtain ⟨placement, _, rfl⟩ := allocate_eq_ok outcome
          simp only [after, outcome]
          rfl
  | release handle owner =>
      cases outcome : memory.release handle owner with
      | error cause => simp only [after, outcome]
      | ok released =>
          obtain ⟨_, _, _, rfl⟩ := release_eq_ok outcome
          simp only [after, outcome, window_vacate]
  | releaseAt base owner =>
      cases outcome : memory.releaseAt base owner with
      | error cause => simp only [after, outcome]
      | ok released =>
          obtain ⟨_, _, _, _, _, rfl⟩ := releaseAt_eq_ok outcome
          simp only [after, outcome, window_vacate]
  | releaseOwnedBy owner => exact window_releaseOwnedBy memory owner

theorem windowStop_congr (same : after.window = memory.window) :
    after.windowStop = memory.windowStop := by
  obtain ⟨base, pages⟩ := Prod.mk.inj same
  rw [windowStop, windowStop, windowSize, windowSize, base, pages]

theorem inWindow_congr (same : after.window = memory.window) :
    after.inWindow base = memory.inWindow base := by
  rw [inWindow, inWindow, windowStop_congr same, (Prod.mk.inj same).1]

theorem Spans.hasPage_first (spans : memory.Spans region) :
    memory.HasPage region (memory.firstPage region) :=
  ⟨le_rfl, Nat.lt_add_of_pos_right spans.positive⟩

/-- Regions that start at the same address have a page in common. -/
theorem Layout.eq_of_base_eq (layout : memory.Layout)
    (holds : memory.Holds slot region)
    (otherHolds : memory.Holds other otherRegion)
    (same : otherRegion.base = region.base) :
    other = slot ∧ otherRegion = region := by
  have first : memory.firstPage otherRegion = memory.firstPage region := by
    rw [firstPage, firstPage, same]
  have has := (layout.spans slot region holds).hasPage_first
  have otherHas := (layout.spans other otherRegion otherHolds).hasPage_first
  rw [first] at otherHas
  have here : other = slot := by
    by_contra different
    exact layout.apart other slot otherRegion region different otherHolds
      holds _ otherHas has
  subst here
  exact ⟨rfl, Option.some.inj (otherHolds.symm.trans holds)⟩

theorem Layout.base_of_holds (layout : memory.Layout)
    (holds : memory.Holds slot region) :
    memory.inWindow region.base = true ∧ region.base % pageSize = 0 := by
  have spans := layout.spans slot region holds
  have first : memory.firstPage region < memory.totalPages :=
    (Nat.lt_add_of_pos_right spans.positive).trans_le spans.inside
  have below : memory.firstPage region * pageSize <
      memory.totalPages * pageSize :=
    Nat.mul_lt_mul_of_pos_right first (by decide)
  rw [inWindow, Bool.and_eq_true, decide_eq_true_eq, decide_eq_true_eq,
    windowStop, windowSize, spans.base_eq]
  refine ⟨⟨Nat.le_add_right _ _, Nat.add_lt_add_left below _⟩, ?_⟩
  rw [Nat.add_mul_mod_self_right]
  exact layout.window_aligned

theorem Layout.base_granted_ne (layout : memory.Layout)
    {placement : Placement} (fits : memory.Fits placement)
    (holds : memory.Holds slot region) :
    (memory.grant placement owner).region.base ≠ region.base := by
  intro same
  have granted := holds_granted memory placement owner
  have here := (layout.grant fits).eq_of_base_eq (fits.holds_grant holds)
    granted same
  exact fits.ne_of_holds holds here.1.symm

theorem find?_of_starts (starts : memory.Starts base) :
    ∃ handle region, memory.find? base = some (handle, region) ∧
      memory.region? handle = some region := by
  obtain ⟨slot, region, holds, rfl⟩ := starts
  cases searched : memory.slotAt? region.base with
  | none =>
      have missed := Slots.first?_eq_none_iff.mp searched slot
      have held : memory.slots[slot].region = some region := holds
      rw [RegionSlot.startsAt, held] at missed
      exact absurd rfl (of_decide_eq_false missed)
  | some other =>
      have accepted := Slots.accepts_of_first? searched
      cases content : memory.slots[other].region with
      | none =>
          rw [RegionSlot.startsAt, content] at accepted
          cases accepted
      | some found =>
          refine ⟨⟨other, memory.slots[other].generation⟩, found, ?_,
            region?_eq_some_iff.mpr ⟨rfl, content⟩⟩
          rw [find?, searched, Option.bind_eq_bind, Option.bind_some, content]
          rfl

theorem find?_eq_none_iff :
    memory.find? base = none ↔ ¬ memory.Starts base := by
  constructor
  · intro missed starts
    obtain ⟨handle, region, found, _⟩ := find?_of_starts starts
    rw [missed] at found
    cases found
  · intro nobody
    rw [Option.eq_none_iff_forall_ne_some]
    rintro ⟨handle, region⟩ found
    obtain ⟨holds, starts⟩ := find?_eq_some found
    exact nobody ⟨handle.slot, region, holds, starts⟩

theorem Layout.find?_of_holds (layout : memory.Layout)
    (holds : memory.Holds slot region) :
    ∃ handle, handle.slot = slot ∧ memory.region? handle = some region ∧
      memory.find? region.base = some (handle, region) := by
  obtain ⟨handle, other, found, named⟩ :=
    find?_of_starts ⟨slot, region, holds, rfl⟩
  obtain ⟨here, rfl⟩ := layout.eq_of_base_eq holds (holds_of_region? named)
    (find?_eq_some found).2
  exact ⟨handle, here, named, found⟩

/-- What comes of giving back the region that starts at an address. -/
inductive Redeems (memory : Allocator) (base : Nat) (owner : ProcessId) :
    Except MemoryError Allocator → Prop
  | released (slot : Fin 128) (region : Region)
      (holds : memory.Holds slot region) (starts : region.base = base)
      (owned : region.owner = owner) :
      Redeems memory base owner (.ok (memory.vacate slot))
  | foreign (slot : Fin 128) (region : Region)
      (holds : memory.Holds slot region) (starts : region.base = base)
      (foreign : region.owner ≠ owner) :
      Redeems memory base owner (.error .notOwner)
  | spent (nobody : ¬ memory.Starts base)
      (inside : memory.inWindow base = true) (aligned : base % pageSize = 0) :
      Redeems memory base owner (.error .alreadyReleased)
  | unknown (nobody : ¬ memory.Starts base)
      (elsewhere : ¬ (memory.inWindow base = true ∧ base % pageSize = 0)) :
      Redeems memory base owner (.error .unknownRegion)

theorem release_of_foreign {handle : RegionHandle}
    (named : memory.region? handle = some region)
    (foreign : region.owner ≠ owner) :
    memory.release handle owner = .error .notOwner := by
  obtain ⟨current, holds⟩ := region?_eq_some_iff.mp named
  rw [Holds] at holds
  rw [release, if_neg (not_not.mpr current), holds]
  exact if_pos foreign

theorem Layout.redeems_releaseAt (layout : memory.Layout) (base : Nat)
    (owner : ProcessId) :
    memory.Redeems base owner (memory.releaseAt base owner) := by
  unfold releaseAt
  by_cases starts : memory.Starts base
  · obtain ⟨slot, region, holds, rfl⟩ := starts
    obtain ⟨handle, rfl, named, found⟩ := layout.find?_of_holds holds
    rw [found]
    dsimp only
    by_cases owned : region.owner = owner
    · subst owned
      rw [release_of_region? named]
      exact .released handle.slot region holds rfl rfl
    · rw [release_of_foreign named owned]
      exact .foreign handle.slot region holds rfl owned
  · rw [find?_eq_none_iff.mpr starts]
    dsimp only
    split
    · rename_i here
      exact .spent starts here.1 here.2
    · rename_i elsewhere
      exact .unknown starts elsewhere

structure Vacates (slot : Fin 128) (region : Region)
    (before after : Allocator) : Prop where
  window : after.window = before.window
  holds_iff : ∀ other kept, after.Holds other kept ↔
    other ≠ slot ∧ before.Holds other kept
  region?_eq : ∀ handle, after.region? handle =
    if handle.slot = slot then none else before.region? handle
  isTaken_eq : ∀ page, after.pages.isTaken page =
    if before.HasPage region page then false else before.pages.isTaken page
  freePages_eq : after.freePages = before.freePages + region.pages

theorem Layout.vacates (layout : memory.Layout)
    (holds : memory.Holds slot region) :
    Vacates slot region memory (memory.vacate slot) where
  window := window_vacate
  holds_iff := holds_vacate
  region?_eq handle := by
    split
    · rename_i here
      rw [region?_eq_none_iff, here]
      exact fun _ => region_vacate_self
    · rename_i away
      exact region?_vacate away
  isTaken_eq := isTaken_vacate layout holds
  freePages_eq := by rw [vacate_of_holds holds]

theorem Layout.not_starts_of_vacates (layout : memory.Layout)
    (holds : memory.Holds slot region)
    (vacates : Vacates slot region memory after) :
    ¬ after.Starts region.base := by
  rintro ⟨other, otherRegion, stays, same⟩
  obtain ⟨away, otherHolds⟩ := (vacates.holds_iff _ _).mp stays
  exact away (layout.eq_of_base_eq holds otherHolds same).1

end Allocator

end Nucleus
