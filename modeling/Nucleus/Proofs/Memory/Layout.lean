import Nucleus.Memory.Allocator
import Nucleus.Proofs.Memory.FreeRun
import Nucleus.Proofs.Tally

/-!
The layout of the window.  Counted in pages from the bottom of the window,
every live region takes an interval of its own, the map shows exactly the pages
of these intervals as taken, and the free pages are all the others.  Handing
out a place that the search found and vacating a slot both keep it that way.
-/

namespace Nucleus

def Region.pages (region : Region) : Nat :=
  region.length / pageSize

namespace Allocator

/-- A slot holds a live region. -/
def Holds (memory : Allocator) (slot : Fin 128) (region : Region) : Prop :=
  memory.slots[slot].region = some region

def firstPage (memory : Allocator) (region : Region) : Nat :=
  (region.base - memory.windowBase) / pageSize

/-- A region is a run of whole pages of the window. -/
structure Spans (memory : Allocator) (region : Region) : Prop where
  base_eq : region.base =
    memory.windowBase + memory.firstPage region * pageSize
  length_eq : region.length = region.pages * pageSize
  positive : 0 < region.pages
  inside : memory.firstPage region + region.pages ≤ memory.totalPages

def HasPage (memory : Allocator) (region : Region) (page : Nat) : Prop :=
  memory.firstPage region ≤ page ∧
    page < memory.firstPage region + region.pages

instance (memory : Allocator) (region : Region) (page : Nat) :
    Decidable (memory.HasPage region page) :=
  inferInstanceAs (Decidable (_ ∧ _))

def pagesAt (memory : Allocator) (slot : Fin 128) : Nat :=
  match memory.slots[slot].region with
  | some region => region.pages
  | none => 0

structure Layout (memory : Allocator) : Prop where
  window_aligned : memory.windowBase % pageSize = 0
  window_small : memory.totalPages ≤ maxPages
  spans : ∀ slot region, memory.Holds slot region → memory.Spans region
  apart : ∀ slot other region otherRegion, slot ≠ other →
    memory.Holds slot region → memory.Holds other otherRegion →
      ∀ page, memory.HasPage region page → ¬ memory.HasPage otherRegion page
  taken_iff : ∀ page, memory.pages.isTaken page = true ↔
    ∃ slot region, memory.Holds slot region ∧ memory.HasPage region page
  conserved : memory.freePages + ∑ slot, memory.pagesAt slot =
    memory.totalPages

theorem pagesAt_of_holds {memory : Allocator} {slot : Fin 128}
    {region : Region} (holds : memory.Holds slot region) :
    memory.pagesAt slot = region.pages := by
  simp only [pagesAt, show memory.slots[slot].region = some region from holds]

theorem pagesAt_of_vacant {memory : Allocator} {slot : Fin 128}
    (vacant : memory.slots[slot].region = none) :
    memory.pagesAt slot = 0 := by
  simp only [pagesAt, vacant]

theorem holds_empty (slot : Fin 128) (region : Region) :
    ¬ empty.Holds slot region := by
  simp [Holds, empty, RegionSlot.empty]

/-- A window is accepted if it starts on a page boundary and has at least one
page, but no more than the map describes. -/
theorem ofWindow_eq_ok_iff {base size : Nat} {memory : Allocator} :
    ofWindow base size = .ok memory ↔
      (base % pageSize = 0 ∧ 0 < size / pageSize ∧
        size / pageSize ≤ maxPages) ∧
      memory = { empty with
        windowBase := base
        totalPages := size / pageSize
        freePages := size / pageSize } := by
  simp only [ofWindow]
  split
  · rename_i refused
    constructor
    · intro accepted
      cases accepted
    · rintro ⟨⟨aligned, positive, small⟩, _⟩
      omega
  · rename_i fine
    simp only [ne_eq, not_or, not_not, Nat.not_lt] at fine
    obtain ⟨aligned, nonzero, small⟩ := fine
    have bounds : base % pageSize = 0 ∧ 0 < size / pageSize ∧
        size / pageSize ≤ maxPages :=
      ⟨aligned, Nat.pos_of_ne_zero nonzero, small⟩
    rw [Except.ok.injEq, eq_comm, and_iff_right bounds]

theorem Layout.untouched {base pages : Nat}
    (aligned : base % pageSize = 0) (small : pages ≤ maxPages) :
    Layout { empty with
      windowBase := base
      totalPages := pages
      freePages := pages } := by
  have vacant : ∀ slot region, ¬ Holds _ slot region := holds_empty
  constructor
  · exact aligned
  · exact small
  · intro slot region holds
    exact absurd holds (vacant slot region)
  · intro slot _ region _ _ holds
    exact absurd holds (vacant slot region)
  · intro page
    constructor
    · intro taken
      simp [empty] at taken
    · rintro ⟨slot, region, holds, _⟩
      exact absurd holds (vacant slot region)
  · rw [Finset.sum_eq_zero]
    · rfl
    · intro slot _
      exact pagesAt_of_vacant (by simp [empty, RegionSlot.empty])

theorem Layout.empty : Allocator.empty.Layout :=
  Layout.untouched (Nat.zero_mod _) (Nat.zero_le _)

theorem Layout.ofWindow {base size : Nat} {memory : Allocator}
    (accepted : Allocator.ofWindow base size = .ok memory) :
    memory.Layout := by
  obtain ⟨⟨aligned, _, small⟩, rfl⟩ := ofWindow_eq_ok_iff.mp accepted
  exact Layout.untouched aligned small

/-- A place that can be handed out. -/
structure Fits (memory : Allocator) (placement : Placement) : Prop where
  vacant : memory.slots[placement.slot].region = none
  positive : 0 < placement.pages
  enough : placement.pages ≤ memory.freePages
  inside : placement.first + placement.pages ≤ memory.totalPages
  free : memory.pages.FreeRun placement.first placement.pages

/-- What is handed out takes the place of nothing. -/
theorem Fits.ne_of_holds {memory : Allocator} {placement : Placement}
    (fits : memory.Fits placement) {slot : Fin 128} {region : Region}
    (holds : memory.Holds slot region) : slot ≠ placement.slot := by
  rintro rfl
  rw [Holds, fits.vacant] at holds
  cases holds

theorem pagesFor_pos {size : Nat} (nonzero : size ≠ 0) :
    0 < pagesFor size := by
  unfold pagesFor pageSize
  omega

theorem fits_of_place? {memory : Allocator} {size : Nat}
    {placement : Placement} (placed : memory.place? size = .ok placement) :
    memory.Fits placement := by
  simp only [place?] at placed
  split at placed
  · cases placed
  · rename_i nonzero
    split at placed
    · cases placed
    · rename_i enough
      cases slotEquation :
          Slots.first? memory.slots RegionSlot.isVacant with
      | none => simp [slotEquation] at placed
      | some slot =>
          cases runEquation :
              memory.pages.firstRun? memory.totalPages (pagesFor size) with
          | none => simp [slotEquation, runEquation] at placed
          | some first =>
              simp only [slotEquation, runEquation, Except.ok.injEq] at placed
              subst placed
              have isVacant := Slots.accepts_of_first? slotEquation
              obtain ⟨inside, free⟩ := PageMap.firstRun?_freeRun runEquation
              exact
                { vacant := Option.isNone_iff_eq_none.mp isVacant
                  positive := pagesFor_pos nonzero
                  enough := Nat.not_lt.mp enough
                  inside := inside
                  free := free }

section Grant

variable {memory : Allocator} {placement : Placement} {owner : ProcessId}

theorem holds_grant (slot : Fin 128) (region : Region) :
    (memory.grant placement owner).memory.Holds slot region ↔
      (slot = placement.slot ∧
        region = (memory.grant placement owner).region) ∨
      (slot ≠ placement.slot ∧ memory.Holds slot region) := by
  simp only [Holds, grant, occupy, Slots.get_write]
  by_cases here : slot = placement.slot
  · simp [here, eq_comm]
  · simp [here]

theorem Fits.holds_grant (fits : memory.Fits placement) {slot : Fin 128}
    {region : Region} (holds : memory.Holds slot region) :
    (memory.grant placement owner).memory.Holds slot region :=
  (Allocator.holds_grant slot region).mpr (.inr ⟨fits.ne_of_holds holds, holds⟩)

theorem firstPage_grant (region : Region) :
    (memory.grant placement owner).memory.firstPage region =
      memory.firstPage region := rfl

theorem hasPage_grant (region : Region) (page : Nat) :
    (memory.grant placement owner).memory.HasPage region page ↔
      memory.HasPage region page := Iff.rfl

theorem firstPage_granted (memory : Allocator) (placement : Placement)
    (owner : ProcessId) :
    memory.firstPage (memory.grant placement owner).region =
      placement.first := by
  simp [firstPage, grant, pageSize]

theorem pages_granted (memory : Allocator) (placement : Placement)
    (owner : ProcessId) :
    (memory.grant placement owner).region.pages = placement.pages := by
  simp [Region.pages, grant, pageSize]

theorem holds_granted (memory : Allocator) (placement : Placement)
    (owner : ProcessId) :
    (memory.grant placement owner).memory.Holds placement.slot
      (memory.grant placement owner).region :=
  (holds_grant _ _).mpr (.inl ⟨rfl, rfl⟩)

theorem pagesAt_grant_of_ne {slot : Fin 128} (away : slot ≠ placement.slot) :
    (memory.grant placement owner).memory.pagesAt slot =
      memory.pagesAt slot := by
  simp [pagesAt, grant, occupy, Slots.get_write_of_ne _ _ away]

theorem hasPage_granted (page : Nat) :
    memory.HasPage (memory.grant placement owner).region page ↔
      placement.first ≤ page ∧ page < placement.first + placement.pages := by
  rw [HasPage, firstPage_granted, pages_granted]

theorem Fits.spans_granted (fits : memory.Fits placement) :
    (memory.grant placement owner).memory.Spans
      (memory.grant placement owner).region := by
  have first := firstPage_granted memory placement owner
  have pages := pages_granted memory placement owner
  constructor
  · rw [firstPage_grant, first]
    rfl
  · rw [pages]
    rfl
  · rw [pages]
    exact fits.positive
  · rw [firstPage_grant, first, pages]
    exact fits.inside

/-- The place is free, so no live region has one of its pages. -/
theorem Layout.not_hasPage_granted (layout : memory.Layout)
    (fits : memory.Fits placement) {slot : Fin 128} {region : Region}
    (holds : memory.Holds slot region) {page : Nat}
    (has : memory.HasPage region page) :
    ¬ memory.HasPage (memory.grant placement owner).region page := by
  intro inPlace
  have taken := (layout.taken_iff page).mpr ⟨slot, region, holds, has⟩
  obtain ⟨after, before⟩ := (hasPage_granted page).mp inPlace
  rw [fits.free page after before] at taken
  cases taken

theorem Layout.isTaken_grant (layout : memory.Layout)
    (fits : memory.Fits placement) (page : Nat) :
    (memory.grant placement owner).memory.pages.isTaken page =
      if placement.first ≤ page ∧
          page < placement.first + placement.pages then true
      else memory.pages.isTaken page :=
  PageMap.isTaken_mark _ _ _ _ (fits.inside.trans layout.window_small) page

theorem Layout.taken_iff_grant (layout : memory.Layout)
    (fits : memory.Fits placement) (page : Nat) :
    (memory.grant placement owner).memory.pages.isTaken page = true ↔
      ∃ slot region,
        (memory.grant placement owner).memory.Holds slot region ∧
          memory.HasPage region page := by
  rw [layout.isTaken_grant fits]
  split
  · rename_i inPlace
    rw [eq_self, true_iff]
    exact ⟨placement.slot, _, holds_granted memory placement owner,
      (hasPage_granted page).mpr inPlace⟩
  · rename_i outside
    rw [layout.taken_iff page]
    constructor
    · rintro ⟨slot, region, holds, has⟩
      exact ⟨slot, region, fits.holds_grant holds, has⟩
    · rintro ⟨slot, region, holds, has⟩
      rcases (holds_grant slot region).mp holds with ⟨_, rfl⟩ | ⟨_, old⟩
      · exact absurd ((hasPage_granted page).mp has) outside
      · exact ⟨slot, region, old, has⟩

theorem Layout.conserved_grant (layout : memory.Layout)
    (fits : memory.Fits placement) :
    (memory.grant placement owner).memory.freePages +
        ∑ slot, (memory.grant placement owner).memory.pagesAt slot =
      memory.totalPages := by
  have exchanged := Slots.sum_exchange memory.pagesAt
    (memory.grant placement owner).memory.pagesAt
    fun slot away => pagesAt_grant_of_ne away
  have holds := holds_granted memory placement owner
  rw [pagesAt_of_vacant fits.vacant, pagesAt_of_holds holds,
    pages_granted] at exchanged
  have conserved := layout.conserved
  have enough := fits.enough
  change memory.freePages - placement.pages + _ = memory.totalPages
  omega

theorem Layout.grant (layout : memory.Layout) (fits : memory.Fits placement) :
    (memory.grant placement owner).memory.Layout := by
  constructor
  · exact layout.window_aligned
  · exact layout.window_small
  · intro slot region holds
    rcases (holds_grant slot region).mp holds with ⟨_, rfl⟩ | ⟨_, old⟩
    · exact fits.spans_granted
    · have spans := layout.spans slot region old
      exact ⟨spans.base_eq, spans.length_eq, spans.positive, spans.inside⟩
  · intro slot other region otherRegion different holds otherHolds page has
    rw [hasPage_grant] at has ⊢
    rcases (holds_grant slot region).mp holds with ⟨here, rfl⟩ | ⟨_, old⟩
    · rcases (holds_grant other otherRegion).mp otherHolds with
        ⟨there, _⟩ | ⟨_, otherOld⟩
      · exact absurd (here.trans there.symm) different
      · exact fun otherHas =>
          layout.not_hasPage_granted fits otherOld otherHas has
    · rcases (holds_grant other otherRegion).mp otherHolds with
        ⟨_, rfl⟩ | ⟨_, otherOld⟩
      · exact layout.not_hasPage_granted fits old has
      · exact layout.apart slot other region otherRegion different old
          otherOld page has
  · exact layout.taken_iff_grant fits
  · exact layout.conserved_grant fits

end Grant

section Vacate

variable {memory : Allocator} {slot : Fin 128}

theorem vacate_of_vacant (vacant : memory.slots[slot].region = none) :
    memory.vacate slot = memory := by
  simp only [vacate, vacant]

theorem vacate_of_holds {region : Region}
    (holds : memory.Holds slot region) :
    memory.vacate slot =
      { memory with
        pages := memory.pages.mark (memory.firstPage region) region.pages
          false
        slots := Slots.write memory.slots slot
          ⟨none, memory.slots[slot].generation + 1⟩
        freePages := memory.freePages + region.pages } := by
  simp only [vacate, show memory.slots[slot].region = some region from holds,
    occupy]
  rfl

@[simp] theorem windowBase_vacate :
    (memory.vacate slot).windowBase = memory.windowBase := by
  unfold vacate
  split <;> rfl

@[simp] theorem totalPages_vacate :
    (memory.vacate slot).totalPages = memory.totalPages := by
  unfold vacate
  split <;> rfl

theorem slots_vacate_of_ne {other : Fin 128} (away : other ≠ slot) :
    (memory.vacate slot).slots[other] = memory.slots[other] := by
  cases content : memory.slots[slot].region with
  | none => rw [vacate_of_vacant content]
  | some region =>
      rw [vacate_of_holds content]
      exact Slots.get_write_of_ne _ _ away

theorem region_vacate_self :
    (memory.vacate slot).slots[slot].region = none := by
  cases content : memory.slots[slot].region with
  | none => rw [vacate_of_vacant content, content]
  | some region =>
      rw [vacate_of_holds content]
      exact congrArg RegionSlot.region (Slots.get_write_self _ _ _)

theorem holds_vacate (other : Fin 128) (region : Region) :
    (memory.vacate slot).Holds other region ↔
      other ≠ slot ∧ memory.Holds other region := by
  by_cases here : other = slot
  · subst here
    simp only [Holds, region_vacate_self, ne_eq, not_true_eq_false,
      false_and, reduceCtorEq]
  · simp only [Holds, slots_vacate_of_ne here, ne_eq, here,
      not_false_eq_true, true_and]

theorem hasPage_vacate (region : Region) (page : Nat) :
    (memory.vacate slot).HasPage region page ↔ memory.HasPage region page := by
  simp only [HasPage, firstPage, windowBase_vacate]

theorem pagesAt_vacate_of_ne {other : Fin 128} (away : other ≠ slot) :
    (memory.vacate slot).pagesAt other = memory.pagesAt other := by
  simp only [pagesAt, slots_vacate_of_ne away]

theorem isTaken_vacate (layout : memory.Layout) {region : Region}
    (holds : memory.Holds slot region) (page : Nat) :
    (memory.vacate slot).pages.isTaken page =
      if memory.HasPage region page then false
      else memory.pages.isTaken page := by
  have inside := (layout.spans slot region holds).inside
  rw [vacate_of_holds holds]
  exact PageMap.isTaken_mark _ _ _ _ (inside.trans layout.window_small) page

theorem Spans.vacate {region : Region} (spans : memory.Spans region)
    (slot : Fin 128) : (memory.vacate slot).Spans region := by
  constructor
  · simpa only [firstPage, windowBase_vacate] using spans.base_eq
  · exact spans.length_eq
  · exact spans.positive
  · simpa only [firstPage, windowBase_vacate, totalPages_vacate] using
      spans.inside

theorem Layout.taken_iff_vacate (layout : memory.Layout) {region : Region}
    (holds : memory.Holds slot region) (page : Nat) :
    (memory.vacate slot).pages.isTaken page = true ↔
      ∃ other otherRegion, (memory.vacate slot).Holds other otherRegion ∧
        (memory.vacate slot).HasPage otherRegion page := by
  rw [isTaken_vacate layout holds]
  constructor
  · intro taken
    split at taken
    · cases taken
    · rename_i outside
      obtain ⟨other, otherRegion, otherHolds, has⟩ :=
        (layout.taken_iff page).mp taken
      have away : other ≠ slot := by
        rintro rfl
        obtain rfl : region = otherRegion :=
          Option.some.inj (holds.symm.trans otherHolds)
        exact outside has
      exact ⟨other, otherRegion, (holds_vacate other otherRegion).mpr
        ⟨away, otherHolds⟩, (hasPage_vacate otherRegion page).mpr has⟩
  · rintro ⟨other, otherRegion, otherHolds, has⟩
    rw [hasPage_vacate] at has
    obtain ⟨away, old⟩ := (holds_vacate other otherRegion).mp otherHolds
    rw [if_neg (layout.apart other slot otherRegion region away old holds
      page has)]
    exact (layout.taken_iff page).mpr ⟨other, otherRegion, old, has⟩

theorem Layout.conserved_vacate (layout : memory.Layout) {region : Region}
    (holds : memory.Holds slot region) :
    (memory.vacate slot).freePages +
        ∑ other, (memory.vacate slot).pagesAt other =
      memory.totalPages := by
  have exchanged := Slots.sum_exchange memory.pagesAt
    (memory.vacate slot).pagesAt
    fun other away => pagesAt_vacate_of_ne away
  rw [pagesAt_of_holds holds, pagesAt_of_vacant region_vacate_self]
    at exchanged
  have conserved := layout.conserved
  have freed : (memory.vacate slot).freePages =
      memory.freePages + region.pages := by
    rw [vacate_of_holds holds]
  rw [freed]
  omega

theorem Layout.vacate (layout : memory.Layout) (slot : Fin 128) :
    (memory.vacate slot).Layout := by
  cases content : memory.slots[slot].region with
  | none =>
      rw [vacate_of_vacant content]
      exact layout
  | some region =>
      have holds : memory.Holds slot region := content
      constructor
      · rw [windowBase_vacate]
        exact layout.window_aligned
      · rw [totalPages_vacate]
        exact layout.window_small
      · intro other otherRegion otherHolds
        have old := ((holds_vacate other otherRegion).mp otherHolds).2
        exact (layout.spans other otherRegion old).vacate slot
      · intro first second firstRegion secondRegion different firstHolds
          secondHolds page
        rw [hasPage_vacate, hasPage_vacate]
        exact layout.apart first second firstRegion secondRegion different
          ((holds_vacate first firstRegion).mp firstHolds).2
          ((holds_vacate second secondRegion).mp secondHolds).2 page
      · exact layout.taken_iff_vacate holds
      · rw [totalPages_vacate]
        exact layout.conserved_vacate holds

end Vacate

end Allocator

end Nucleus
