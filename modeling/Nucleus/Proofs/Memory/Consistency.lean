import Mathlib.Data.Nat.Count
import Mathlib.Order.Interval.Finset.Nat
import Nucleus.Proofs.Memory.Outcome

/-!
The three views of the window agree.  Whatever is asked of an allocator after
it has taken over a window, its live regions are whole pages of the window,
aligned and disjoint; the map shows exactly their pages as taken; and the free
counter counts the others.
-/

namespace Nucleus

/-- What can be asked of an allocator. -/
inductive MemoryRequest
  | allocate (size : Nat) (owner : ProcessId)
  | release (handle : RegionHandle) (owner : ProcessId)
  | releaseAt (base : Nat) (owner : ProcessId)
  | releaseOwnedBy (owner : ProcessId)
  deriving DecidableEq, Repr

namespace Allocator

/-- The allocator after a request; one that fails leaves it as it was. -/
def after (memory : Allocator) : MemoryRequest → Allocator
  | .allocate size owner =>
      match memory.allocate size owner with
      | .ok grant => grant.memory
      | .error _ => memory
  | .release handle owner =>
      match memory.release handle owner with
      | .ok released => released
      | .error _ => memory
  | .releaseAt base owner =>
      match memory.releaseAt base owner with
      | .ok released => released
      | .error _ => memory
  | .releaseOwnedBy owner => (memory.releaseOwnedBy owner).1

def afterAll (memory : Allocator) (requests : List MemoryRequest) :
    Allocator :=
  requests.foldl after memory

theorem Layout.after {memory : Allocator} (layout : memory.Layout)
    (request : MemoryRequest) : (memory.after request).Layout := by
  cases request with
  | allocate size owner =>
      cases outcome : memory.allocate size owner with
      | error cause => simpa only [Allocator.after, outcome] using layout
      | ok grant =>
          obtain ⟨placement, fits, rfl⟩ := allocate_eq_ok outcome
          simpa only [Allocator.after, outcome] using layout.grant fits
  | release handle owner =>
      cases outcome : memory.release handle owner with
      | error cause => simpa only [Allocator.after, outcome] using layout
      | ok released =>
          obtain ⟨_, _, _, rfl⟩ := release_eq_ok outcome
          simpa only [Allocator.after, outcome] using
            layout.vacate handle.slot
  | releaseAt base owner =>
      cases outcome : memory.releaseAt base owner with
      | error cause => simpa only [Allocator.after, outcome] using layout
      | ok released =>
          obtain ⟨slot, _, _, _, _, rfl⟩ := releaseAt_eq_ok outcome
          simpa only [Allocator.after, outcome] using layout.vacate slot
  | releaseOwnedBy owner => exact layout.releaseOwnedBy owner

theorem Layout.afterAll {memory : Allocator} (layout : memory.Layout)
    (requests : List MemoryRequest) : (memory.afterAll requests).Layout := by
  induction requests generalizing memory with
  | nil => exact layout
  | cons request rest ih => exact ih (layout.after request)

def pageBase (memory : Allocator) (page : Nat) : Nat :=
  memory.windowBase + page * pageSize

/-- A region covers a page of the window from its first address to its last. -/
def Covers (memory : Allocator) (region : Region) (page : Nat) : Prop :=
  region.base ≤ memory.pageBase page ∧
    memory.pageBase (page + 1) ≤ region.stop

/-- The regions, the map and the counter tell the same. -/
structure Consistent (memory : Allocator) : Prop where
  base_aligned : ∀ slot region, memory.Holds slot region →
    region.base % pageSize = 0
  whole_pages : ∀ slot region, memory.Holds slot region →
    ∃ pages, 0 < pages ∧ region.length = pages * pageSize
  inside : ∀ slot region, memory.Holds slot region →
    memory.windowBase ≤ region.base ∧ region.stop ≤ memory.windowStop
  disjoint : ∀ slot other region otherRegion, slot ≠ other →
    memory.Holds slot region → memory.Holds other otherRegion →
      region.stop ≤ otherRegion.base ∨ otherRegion.stop ≤ region.base
  taken_iff : ∀ page, page < memory.totalPages →
    (memory.pages.isTaken page = true ↔
      ∃ slot region, memory.Holds slot region ∧ memory.Covers region page)
  clear_beyond : ∀ page, memory.totalPages ≤ page →
    memory.pages.isTaken page = false
  free_count : memory.freePages =
    Nat.count (fun page => memory.pages.isTaken page = false)
      memory.totalPages
  conserved : memory.freePages + ∑ slot, memory.pagesAt slot =
    memory.totalPages

theorem Spans.covers_iff {memory : Allocator} {region : Region}
    (spans : memory.Spans region) (page : Nat) :
    memory.Covers region page ↔ memory.HasPage region page := by
  have start := spans.base_eq
  have length := spans.length_eq
  simp only [Covers, HasPage, pageBase, Region.stop, pageSize] at start length ⊢
  omega

theorem Spans.stop_eq {memory : Allocator} {region : Region}
    (spans : memory.Spans region) :
    region.stop = memory.windowBase +
      (memory.firstPage region + region.pages) * pageSize := by
  rw [Region.stop, spans.base_eq, spans.length_eq, Nat.add_mul,
    Nat.add_assoc]

private def pageSet (memory : Allocator) (slot : Fin 128) : Finset Nat :=
  match memory.slots[slot].region with
  | some region =>
      Finset.Ico (memory.firstPage region)
        (memory.firstPage region + region.pages)
  | none => ∅

private theorem mem_pageSet {memory : Allocator} {slot : Fin 128}
    {page : Nat} :
    page ∈ memory.pageSet slot ↔
      ∃ region, memory.Holds slot region ∧ memory.HasPage region page := by
  unfold pageSet Holds
  cases memory.slots[slot].region <;> simp [HasPage]

private theorem card_pageSet (memory : Allocator) (slot : Fin 128) :
    (memory.pageSet slot).card = memory.pagesAt slot := by
  unfold pageSet pagesAt
  cases memory.slots[slot].region <;> simp

/-- The taken pages are the pages of all slots, and these are disjoint. -/
theorem Layout.card_taken {memory : Allocator} (layout : memory.Layout) :
    ((Finset.range memory.totalPages).filter
      fun page => ¬ memory.pages.isTaken page = false).card =
        ∑ slot, memory.pagesAt slot := by
  have union : (Finset.range memory.totalPages).filter
      (fun page => ¬ memory.pages.isTaken page = false) =
        Finset.univ.biUnion memory.pageSet := by
    ext page
    simp only [Finset.mem_filter, Finset.mem_range, Bool.not_eq_false,
      Finset.mem_biUnion, Finset.mem_univ, true_and, mem_pageSet,
      layout.taken_iff page]
    constructor
    · exact fun taken => taken.2
    · rintro ⟨slot, region, holds, has⟩
      have inside := (layout.spans slot region holds).inside
      exact ⟨has.2.trans_le inside, slot, region, holds, has⟩
  rw [union, Finset.card_biUnion]
  · exact Finset.sum_congr rfl fun slot _ => memory.card_pageSet slot
  · intro slot _ other _ different
    rw [Function.onFun, Finset.disjoint_left]
    intro page member otherMember
    obtain ⟨region, holds, has⟩ := mem_pageSet.mp member
    obtain ⟨otherRegion, otherHolds, otherHas⟩ := mem_pageSet.mp otherMember
    exact layout.apart slot other region otherRegion different holds
      otherHolds page has otherHas

theorem Layout.freePages_eq_count {memory : Allocator}
    (layout : memory.Layout) :
    memory.freePages =
      Nat.count (fun page => memory.pages.isTaken page = false)
        memory.totalPages := by
  have split := Finset.card_filter_add_card_filter_not
    (s := Finset.range memory.totalPages)
    (fun page => memory.pages.isTaken page = false)
  rw [layout.card_taken, Finset.card_range] at split
  have conserved := layout.conserved
  rw [Nat.count_eq_card_filter_range]
  omega

theorem Layout.consistent {memory : Allocator} (layout : memory.Layout) :
    memory.Consistent := by
  constructor
  · intro slot region holds
    rw [(layout.spans slot region holds).base_eq, Nat.add_mul_mod_self_right]
    exact layout.window_aligned
  · intro slot region holds
    have spans := layout.spans slot region holds
    exact ⟨region.pages, spans.positive, spans.length_eq⟩
  · intro slot region holds
    have spans := layout.spans slot region holds
    constructor
    · rw [spans.base_eq]
      exact Nat.le_add_right _ _
    · rw [spans.stop_eq]
      exact Nat.add_le_add_left
        (Nat.mul_le_mul_right pageSize spans.inside) _
  · intro slot other region otherRegion different holds otherHolds
    have spans := layout.spans slot region holds
    have otherSpans := layout.spans other otherRegion otherHolds
    have apart := layout.apart slot other region otherRegion different holds
      otherHolds
    have first := apart (memory.firstPage region)
    have second := apart (memory.firstPage otherRegion)
    have positive := spans.positive
    have otherPositive := otherSpans.positive
    simp only [HasPage] at first second
    rw [spans.stop_eq, otherSpans.stop_eq, spans.base_eq, otherSpans.base_eq]
    unfold pageSize
    omega
  · intro page _
    rw [layout.taken_iff page]
    constructor
    · rintro ⟨slot, region, holds, has⟩
      exact ⟨slot, region, holds,
        ((layout.spans slot region holds).covers_iff page).mpr has⟩
    · rintro ⟨slot, region, holds, covers⟩
      exact ⟨slot, region, holds,
        ((layout.spans slot region holds).covers_iff page).mp covers⟩
  · intro page beyond
    rw [← Bool.not_eq_true, layout.taken_iff page]
    rintro ⟨slot, region, holds, has⟩
    have inside := (layout.spans slot region holds).inside
    exact absurd (has.2.trans_le inside) (Nat.not_lt.mpr beyond)
  · exact layout.freePages_eq_count
  · exact layout.conserved

/-- An allocator stays consistent under all requests, successful or not. -/
theorem consistent_afterAll {base size : Nat} {memory : Allocator}
    (accepted : ofWindow base size = .ok memory)
    (requests : List MemoryRequest) :
    (memory.afterAll requests).Consistent :=
  ((Layout.ofWindow accepted).afterAll requests).consistent

/-- Ten pages across the end of a word of the map, then releases, one of them
by a stranger. -/
theorem consistent_afterAll_across_words :
    ∃ memory, ofWindow 0x48000000 0x64000 = .ok memory ∧
      (memory.afterAll [.allocate 0x3c000 ⟨1⟩, .allocate 0xa000 ⟨2⟩,
        .releaseAt 0x48000000 ⟨2⟩, .releaseOwnedBy ⟨1⟩,
        .release ⟨1, 0⟩ ⟨2⟩]).Consistent := by
  refine ⟨_, ofWindow_eq_ok_iff.mpr ⟨by decide, rfl⟩, ?_⟩
  exact consistent_afterAll (ofWindow_eq_ok_iff.mpr ⟨by decide, rfl⟩) _

end Allocator

end Nucleus
