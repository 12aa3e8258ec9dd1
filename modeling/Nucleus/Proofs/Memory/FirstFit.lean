import Mathlib.Algebra.Order.Floor.Div
import Nucleus.Proofs.Memory.Consistency
import Nucleus.Proofs.Memory.Handle

namespace Nucleus

namespace Allocator

variable {memory : Allocator} {size pages first : Nat} {owner : ProcessId}

/-- The `pages` pages from `first` on are in the window and free. -/
def Room (memory : Allocator) (pages first : Nat) : Prop :=
  first + pages ≤ memory.totalPages ∧ memory.pages.FreeRun first pages

theorem pagesFor_eq_ceilDiv (size : Nat) :
    pagesFor size = size ⌈/⌉ pageSize := by
  rw [Nat.ceilDiv_eq_add_pred_div]
  rfl

/-- The counter counts every free page, those in a row among them. -/
theorem Layout.le_freePages (layout : memory.Layout)
    (room : memory.Room pages first) : pages ≤ memory.freePages := by
  obtain ⟨inside, free⟩ := room
  have counted : Finset.Ico first (first + pages) ⊆
      (Finset.range memory.totalPages).filter
        fun page => memory.pages.isTaken page = false := by
    intro page among
    obtain ⟨after, before⟩ := Finset.mem_Ico.mp among
    exact Finset.mem_filter.mpr
      ⟨Finset.mem_range.mpr (by omega), free page after before⟩
  calc pages = (Finset.Ico first (first + pages)).card := by simp
    _ ≤ _ := Finset.card_le_card counted
    _ = memory.freePages := by
        rw [layout.freePages_eq_count, Nat.count_eq_card_filter_range]

inductive Refuses (memory : Allocator) (size : Nat) : MemoryError → Prop
  | zeroSize (nothing : size = 0) : Refuses memory size .zeroSize
  | scarce (asked : 0 < size)
      (scarce : memory.freePages < size ⌈/⌉ pageSize) :
      Refuses memory size .exhausted
  | crowded (asked : 0 < size)
      (enough : size ⌈/⌉ pageSize ≤ memory.freePages)
      (full : ∀ slot : Fin 128, memory.slots[slot].region ≠ none) :
      Refuses memory size .tooManyRegions
  | scattered (asked : 0 < size)
      (enough : size ⌈/⌉ pageSize ≤ memory.freePages)
      (vacancy : ∃ slot : Fin 128, memory.slots[slot].region = none)
      (cramped : ∀ first, ¬ memory.Room (size ⌈/⌉ pageSize) first) :
      Refuses memory size .exhausted

structure Suits (memory : Allocator) (size : Nat) (placement : Placement) :
    Prop where
  asked : 0 < size
  enough : size ⌈/⌉ pageSize ≤ memory.freePages
  vacant : memory.slots[placement.slot].region = none
  pages_eq : placement.pages = size ⌈/⌉ pageSize
  lowest : IsLeast {first | memory.Room (size ⌈/⌉ pageSize) first}
    placement.first

theorem Refuses.unique {cause other : MemoryError}
    (first : memory.Refuses size cause)
    (second : memory.Refuses size other) : cause = other := by
  -- The causes exclude each other: each denies those before it.
  cases first <;> cases second <;> grind

theorem place?_cases (memory : Allocator) (size : Nat) :
    (∃ cause, memory.place? size = .error cause ∧
      memory.Refuses size cause) ∨
    ∃ placement, memory.place? size = .ok placement ∧
      memory.Suits size placement := by
  unfold place?
  simp only [pagesFor_eq_ceilDiv]
  split
  · rename_i nothing
    exact .inl ⟨_, rfl, .zeroSize nothing⟩
  · rename_i something
    have asked := Nat.pos_of_ne_zero something
    have positive := pagesFor_pos something
    rw [pagesFor_eq_ceilDiv] at positive
    split
    · rename_i scarce
      exact .inl ⟨_, rfl, .scarce asked scarce⟩
    · rename_i plenty
      have enough := Nat.not_lt.mp plenty
      cases searched : Slots.first? memory.slots RegionSlot.isVacant with
      | none =>
          have full := Slots.first?_eq_none_iff.mp searched
          refine .inl ⟨_, rfl, .crowded asked enough fun slot vacant => ?_⟩
          have occupied := full slot
          rw [RegionSlot.isVacant, vacant] at occupied
          cases occupied
      | some slot =>
          have isVacant := Slots.accepts_of_first? searched
          have vacant : memory.slots[slot].region = none :=
            Option.isNone_iff_eq_none.mp isVacant
          dsimp only
          cases scanned : memory.pages.firstRun? memory.totalPages
              (size ⌈/⌉ pageSize) with
          | none =>
              have cramped := (PageMap.firstRun?_eq_none_iff positive).mp scanned
              exact .inl ⟨_, rfl, .scattered asked enough ⟨slot, vacant⟩
                fun first room => cramped first room.1 room.2⟩
          | some first =>
              exact .inr ⟨_, rfl, asked, enough, vacant, rfl,
                PageMap.isLeast_of_firstRun? positive scanned⟩

theorem Refuses.not_suits {cause : MemoryError} {placement : Placement}
    (refuses : memory.Refuses size cause) : ¬ memory.Suits size placement := by
  intro suits
  have asked := suits.asked
  have enough := suits.enough
  cases refuses with
  | zeroSize nothing => omega
  | scarce _ scarce => omega
  | crowded _ _ full => exact full placement.slot suits.vacant
  | scattered _ _ _ cramped => exact cramped placement.first suits.lowest.1

/-- What a granted request comes to: the region has the lowest place that is
long enough, and nothing else has changed. -/
structure Settles (memory : Allocator) (size : Nat) (owner : ProcessId)
    (first : Nat) (grant : Grant) : Prop where
  asked : 0 < size
  lowest : IsLeast {start | memory.Room (size ⌈/⌉ pageSize) start} first
  region_eq : grant.region =
    { base := memory.windowBase + first * pageSize
      length := (size ⌈/⌉ pageSize) * pageSize
      owner := owner }
  named : grant.memory.region? grant.handle = some grant.region
  vacant : memory.slots[grant.handle.slot].region = none
  others : ∀ slot : Fin 128, slot ≠ grant.handle.slot →
    grant.memory.slots[slot] = memory.slots[slot]
  isTaken : ∀ page, grant.memory.pages.isTaken page =
    if first ≤ page ∧ page < first + size ⌈/⌉ pageSize then true
    else memory.pages.isTaken page
  freePages : grant.memory.freePages + size ⌈/⌉ pageSize = memory.freePages
  windowBase : grant.memory.windowBase = memory.windowBase
  totalPages : grant.memory.totalPages = memory.totalPages

theorem fits_of_suits {placement : Placement}
    (suits : memory.Suits size placement) : memory.Fits placement where
  vacant := suits.vacant
  positive := by
    rw [suits.pages_eq, ← pagesFor_eq_ceilDiv]
    exact pagesFor_pos suits.asked.ne'
  enough := by
    rw [suits.pages_eq]
    exact suits.enough
  inside := by
    rw [suits.pages_eq]
    exact suits.lowest.1.1
  free := by
    rw [suits.pages_eq]
    exact suits.lowest.1.2

theorem Layout.settles_grant (layout : memory.Layout) {placement : Placement}
    (suits : memory.Suits size placement) (owner : ProcessId) :
    memory.Settles size owner placement.first
      (memory.grant placement owner) where
  asked := suits.asked
  lowest := suits.lowest
  region_eq := by
    rw [← suits.pages_eq]
    rfl
  named := region?_granted memory placement owner
  vacant := suits.vacant
  others := fun _ away => Slots.get_write_of_ne _ _ away
  isTaken := by
    rw [← suits.pages_eq]
    exact layout.isTaken_grant (fits_of_suits suits)
  freePages := by
    rw [← suits.pages_eq]
    exact Nat.sub_add_cancel (fits_of_suits suits).enough
  windowBase := rfl
  totalPages := rfl

theorem Settles.not_overflows {grant : Grant}
    (settles : memory.Settles size owner first grant)
    (ends : memory.windowStop ≤ maxWord + 1) : grant.overflows = false := by
  have inside := settles.lowest.1.1
  have positive := pagesFor_pos settles.asked.ne'
  rw [pagesFor_eq_ceilDiv] at positive
  have below : first < memory.totalPages := by omega
  have bounded : (first + 1) * pageSize ≤ memory.totalPages * pageSize :=
    Nat.mul_le_mul_right pageSize below
  rw [Grant.overflows, settles.region_eq, overflowsWord, decide_eq_false_iff_not]
  unfold windowStop windowSize at ends
  unfold pageSize at *
  dsimp only
  omega

theorem allocate_eq_error_iff {cause : MemoryError} :
    memory.allocate size owner = .error cause ↔ memory.Refuses size cause := by
  unfold allocate
  rcases memory.place?_cases size with
    ⟨found, placed, refuses⟩ | ⟨placement, placed, suits⟩
  · rw [placed]
    constructor
    · intro refused
      rwa [← Except.error.inj refused]
    · exact fun other => congrArg Except.error (refuses.unique other)
  · rw [placed]
    exact iff_of_false nofun fun refuses => refuses.not_suits suits

theorem Layout.settles_of_allocate (layout : memory.Layout) {grant : Grant}
    (allocated : memory.allocate size owner = .ok grant) :
    ∃ first, memory.Settles size owner first grant := by
  unfold allocate at allocated
  rcases memory.place?_cases size with
    ⟨found, placed, _⟩ | ⟨placement, placed, suits⟩
  · rw [placed] at allocated
    cases allocated
  · rw [placed] at allocated
    obtain rfl := Except.ok.inj allocated
    exact ⟨placement.first, layout.settles_grant suits owner⟩

theorem Layout.allocates_iff (layout : memory.Layout) :
    (∃ grant, memory.allocate size owner = .ok grant) ↔
      0 < size ∧ (∃ slot : Fin 128, memory.slots[slot].region = none) ∧
        ∃ first, memory.Room (size ⌈/⌉ pageSize) first := by
  unfold allocate
  rcases memory.place?_cases size with
    ⟨cause, placed, refuses⟩ | ⟨placement, placed, suits⟩
  · rw [placed]
    refine iff_of_false nofun ?_
    rintro ⟨asked, ⟨slot, vacant⟩, first, room⟩
    have enough := layout.le_freePages room
    cases refuses with
    | zeroSize nothing => omega
    | scarce _ scarce => omega
    | crowded _ _ full => exact full slot vacant
    | scattered _ _ _ cramped => exact cramped first room
  · rw [placed]
    exact iff_of_true ⟨_, rfl⟩
      ⟨suits.asked, ⟨_, suits.vacant⟩, _, suits.lowest.1⟩

/-- Whatever a window has been through, a request is granted if there is a slot
and a place for it, gets the lowest one, and is refused for the first cause that
there is; a refused one leaves everything as it was. -/
theorem allocates_first_fit {base extent : Nat} {window : Allocator}
    (accepted : ofWindow base extent = .ok window)
    (requests : List MemoryRequest)
    (ends : (window.afterAll requests).windowStop ≤ maxWord + 1)
    (size : Nat) (owner : ProcessId) :
    let memory := window.afterAll requests
    ((∃ grant, memory.allocate size owner = .ok grant) ↔
      0 < size ∧ (∃ slot : Fin 128, memory.slots[slot].region = none) ∧
        ∃ first, memory.Room (size ⌈/⌉ pageSize) first) ∧
    (∀ grant, memory.allocate size owner = .ok grant →
      grant.overflows = false ∧
        ∃ first, memory.Settles size owner first grant) ∧
    ∀ cause, (memory.allocate size owner = .error cause ↔
        memory.Refuses size cause) ∧
      (memory.allocate size owner = .error cause →
        memory.after (.allocate size owner) = memory) := by
  intro memory
  have layout : memory.Layout :=
    (Layout.ofWindow accepted).afterAll requests
  refine ⟨layout.allocates_iff, fun grant allocated => ?_, fun cause =>
    ⟨allocate_eq_error_iff, fun refused => ?_⟩⟩
  · obtain ⟨first, settles⟩ := layout.settles_of_allocate allocated
    exact ⟨settles.not_overflows ends, first, settles⟩
  · rw [after, refused]

/-- Four pages of which the second and the last are free: one more is laid into
the hole, and two in a row are not to be had. -/
theorem allocates_first_fit_into_a_hole :
    ∃ window grant, ofWindow 0x48000000 0x4000 = .ok window ∧
      let memory := window.afterAll [.allocate 0x1000 ⟨1⟩,
        .allocate 0x1000 ⟨2⟩, .allocate 0x1000 ⟨1⟩, .releaseAt 0x48001000 ⟨2⟩]
      memory.windowStop ≤ maxWord + 1 ∧ memory.freePages = 2 ∧
        memory.allocate 1 ⟨3⟩ = .ok grant ∧
        (grant.overflows = false ∧
          ∃ first, memory.Settles 1 ⟨3⟩ first grant) ∧
        grant.region.base = 0x48001000 ∧ memory.Refuses 0x2000 .exhausted := by
  have accepted := ofWindow_eq_ok_iff.mpr
    ⟨(by decide : 0x48000000 % pageSize = 0 ∧ 0 < 0x4000 / pageSize ∧
      0x4000 / pageSize ≤ maxPages), rfl⟩
  let memory := Allocator.afterAll { empty with
    windowBase := 0x48000000
    totalPages := 0x4000 / pageSize
    freePages := 0x4000 / pageSize } [.allocate 0x1000 ⟨1⟩,
      .allocate 0x1000 ⟨2⟩, .allocate 0x1000 ⟨1⟩, .releaseAt 0x48001000 ⟨2⟩]
  have ends : memory.windowStop ≤ maxWord + 1 := by decide +kernel
  have placed : memory.place? 1 = .ok ⟨1, 1, 1⟩ := by decide +kernel
  have refused : memory.place? 0x2000 = .error .exhausted := by decide +kernel
  have granted : memory.allocate 1 ⟨3⟩ = .ok (memory.grant ⟨1, 1, 1⟩ ⟨3⟩) := by
    rw [allocate, placed]
  have fits := allocates_first_fit accepted _ ends
  refine ⟨_, _, accepted, ends, by decide +kernel, granted,
    (fits 1 ⟨3⟩).2.1 _ granted, by decide +kernel, ?_⟩
  exact ((fits 0x2000 ⟨3⟩).2.2 _).1.mp (by rw [allocate, refused])

end Allocator

end Nucleus
