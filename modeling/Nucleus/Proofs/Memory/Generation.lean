import Nucleus.Proofs.Memory.Consistency
import Nucleus.Proofs.Memory.Handle

/-!
Generations.  Every release of a slot moves its generation on by one, so a
handle that is kept names nothing once its region has been released.  But
generations are words of 16 bits: when the slot has been released a multiple
of 65536 times, the handle names whatever the slot holds then.
-/

namespace Nucleus

namespace Allocator

variable {memory : Allocator} {slot : Fin 128} {handle : RegionHandle}

/-! One request, seen from one slot. -/

theorem slots_vacate_self {region : Region}
    (holds : memory.Holds slot region) :
    (memory.vacate slot).slots[slot] =
      ⟨none, memory.slots[slot].generation + 1⟩ := by
  rw [vacate_of_holds holds]
  exact Slots.get_write_self _ _ _

theorem slots_foldl_vacate_of_mem {slots : List (Fin 128)}
    (distinct : slots.Nodup) (member : slot ∈ slots) :
    (slots.foldl vacate memory).slots[slot] =
      (memory.vacate slot).slots[slot] := by
  induction slots generalizing memory with
  | nil => cases member
  | cons head rest ih =>
      obtain ⟨fresh, distinct⟩ := List.nodup_cons.mp distinct
      rw [List.foldl_cons]
      -- A slot named twice would spend two generations, so none may be.
      by_cases here : slot = head
      · rw [← here] at fresh ⊢
        exact slots_foldl_vacate_of_not_mem fresh
      · have later : slot ∈ rest := (List.mem_cons.mp member).resolve_left here
        rw [ih distinct later]
        cases content : memory.slots[slot].region with
        | none =>
            have vacant : (memory.vacate head).slots[slot].region = none := by
              rw [slots_vacate_of_ne here, content]
            rw [vacate_of_vacant vacant, vacate_of_vacant content,
              slots_vacate_of_ne here]
        | some region =>
            have holds : (memory.vacate head).Holds slot region := by
              rw [Holds, slots_vacate_of_ne here, content]
            rw [slots_vacate_self holds, slots_vacate_self content,
              slots_vacate_of_ne here]

theorem nodup_slotsOwnedBy (memory : Allocator) (owner : ProcessId) :
    (memory.slotsOwnedBy owner).Nodup := by
  unfold slotsOwnedBy Slots.all
  exact (List.nodup_finRange 128).filter _

/-- A request leaves a slot as it is, fills it, or releases it. -/
inductive Lot (before after : RegionSlot) : Prop
  | kept (same : after = before)
  | filled (vacant : before.region = none) (region : Region)
      (same : after = ⟨some region, before.generation⟩)
  | released (region : Region) (live : before.region = some region)
      (same : after = ⟨none, before.generation + 1⟩)

theorem lot_vacate {released : Fin 128} {region : Region}
    (holds : memory.Holds released region) (slot : Fin 128) :
    Lot memory.slots[slot] (memory.vacate released).slots[slot] := by
  by_cases here : slot = released
  · subst here
    exact .released region holds (slots_vacate_self holds)
  · exact .kept (slots_vacate_of_ne here)

theorem lot_after (memory : Allocator) (request : MemoryRequest)
    (slot : Fin 128) :
    Lot memory.slots[slot] (memory.after request).slots[slot] := by
  cases request with
  | allocate size owner =>
      cases outcome : memory.allocate size owner with
      | error cause => exact .kept (by rw [after, outcome])
      | ok grant =>
          obtain ⟨placement, fits, rfl⟩ := allocate_eq_ok outcome
          rw [after, outcome]
          dsimp only [Allocator.grant, occupy]
          by_cases here : slot = placement.slot
          · subst here
            exact .filled fits.vacant _ (Slots.get_write_self _ _ _)
          · exact .kept (Slots.get_write_of_ne _ _ here)
  | release handle owner =>
      cases outcome : memory.release handle owner with
      | error cause => exact .kept (by rw [after, outcome])
      | ok released =>
          obtain ⟨region, holds, _, rfl⟩ := release_eq_ok outcome
          rw [after, outcome]
          exact lot_vacate holds slot
  | releaseAt base owner =>
      cases outcome : memory.releaseAt base owner with
      | error cause => exact .kept (by rw [after, outcome])
      | ok released =>
          obtain ⟨freed, region, holds, _, _, rfl⟩ := releaseAt_eq_ok outcome
          rw [after, outcome]
          exact lot_vacate holds slot
  | releaseOwnedBy owner =>
      rw [after, releaseOwnedBy]
      dsimp only
      by_cases owned : slot ∈ memory.slotsOwnedBy owner
      · obtain ⟨region, holds, _⟩ := mem_slotsOwnedBy.mp owned
        rw [slots_foldl_vacate_of_mem (nodup_slotsOwnedBy memory owner) owned]
        exact lot_vacate holds slot
      · exact .kept (slots_foldl_vacate_of_not_mem owned)

def Frees (memory : Allocator) (slot : Fin 128) (request : MemoryRequest) :
    Prop :=
  memory.slots[slot].region ≠ none ∧
    (memory.after request).slots[slot].region = none

instance (memory : Allocator) (slot : Fin 128) (request : MemoryRequest) :
    Decidable (memory.Frees slot request) :=
  inferInstanceAs (Decidable (_ ∧ _))

def releases (memory : Allocator) (slot : Fin 128) :
    List MemoryRequest → Nat
  | [] => 0
  | request :: rest =>
      (if memory.Frees slot request then 1 else 0) +
        (memory.after request).releases slot rest

theorem generation_after (memory : Allocator) (request : MemoryRequest)
    (slot : Fin 128) :
    (memory.after request).slots[slot].generation =
      memory.slots[slot].generation +
        UInt16.ofNat (if memory.Frees slot request then 1 else 0) := by
  cases lot_after memory request slot with
  | kept same =>
      have spared : ¬ memory.Frees slot request := by
        rintro ⟨live, vacant⟩
        rw [same] at vacant
        exact live vacant
      rw [if_neg spared, same]
      exact (UInt16.add_zero _).symm
  | filled vacant region same =>
      have spared : ¬ memory.Frees slot request := fun frees => frees.1 vacant
      rw [if_neg spared, same]
      exact (UInt16.add_zero _).symm
  | released region live same =>
      have freed : memory.Frees slot request := by
        rw [Frees, live, same]
        exact ⟨Option.some_ne_none region, rfl⟩
      rw [if_pos freed, same]
      rfl

theorem generation_afterAll (memory : Allocator)
    (requests : List MemoryRequest) (slot : Fin 128) :
    (memory.afterAll requests).slots[slot].generation =
      memory.slots[slot].generation +
        UInt16.ofNat (memory.releases slot requests) := by
  induction requests generalizing memory with
  | nil => exact (UInt16.add_zero _).symm
  | cons request rest ih =>
      refine (ih (memory.after request)).trans ?_
      rw [generation_after, releases, UInt16.ofNat_add, UInt16.add_assoc]

theorem ofNat_eq_zero_iff (count : Nat) :
    UInt16.ofNat count = 0 ↔ 2 ^ 16 ∣ count := by
  rw [← UInt16.toNat_inj, UInt16.toNat_ofNat', Nat.dvd_iff_mod_eq_zero]
  rfl

theorem region?_eq_none_iff :
    memory.region? handle = none ↔
      (memory.slots[handle.slot].generation = handle.generation →
        memory.slots[handle.slot].region = none) := by
  simp only [region?]
  split
  · rename_i current
    exact ⟨fun vacant _ => vacant, fun vacant => vacant current⟩
  · rename_i spent
    exact ⟨fun _ current => absurd current spent, fun _ => rfl⟩

theorem release_of_region?_eq_none (gone : memory.region? handle = none)
    (claimant : ProcessId) :
    memory.release handle claimant = .error .alreadyReleased := by
  rw [region?_eq_none_iff] at gone
  simp only [release]
  split
  · rfl
  · rename_i current
    rw [gone (not_not.mp current)]

theorem release_of_region? {region : Region}
    (named : memory.region? handle = some region) :
    memory.release handle region.owner = .ok (memory.vacate handle.slot) := by
  obtain ⟨current, holds⟩ := region?_eq_some_iff.mp named
  rw [Holds] at holds
  rw [release, if_neg (not_not.mpr current), holds]
  exact if_neg (not_not.mpr rfl)

theorem generation_granted {bytes : Nat} {owner : ProcessId} {grant : Grant}
    (allocated : memory.allocate bytes owner = .ok grant) :
    grant.memory.slots[grant.handle.slot].generation =
      grant.handle.generation := by
  obtain ⟨placement, _, rfl⟩ := allocate_eq_ok allocated
  exact (region?_eq_some_iff.mp (region?_granted memory placement owner)).1

/-- A slot that is back at an old generation answers to the old handle. -/
theorem region?_regranted {other : Allocator} {placement : Placement}
    (sameGeneration : other.slots[placement.slot].generation =
      memory.slots[placement.slot].generation)
    (owner heir : ProcessId) :
    (other.grant placement heir).memory.region?
        (memory.grant placement owner).handle =
      some (other.grant placement heir).region := by
  have sameHandle : (memory.grant placement owner).handle =
      (other.grant placement heir).handle :=
    congrArg (RegionHandle.mk placement.slot) sameGeneration.symm
  rw [sameHandle]
  exact region?_granted other placement heir

theorem release_regranted {other : Allocator} {placement : Placement}
    (sameGeneration : other.slots[placement.slot].generation =
      memory.slots[placement.slot].generation)
    (owner heir : ProcessId) :
    (other.grant placement heir).memory.release
        (memory.grant placement owner).handle heir =
      .ok ((other.grant placement heir).memory.vacate placement.slot) :=
  release_of_region? (region?_regranted sameGeneration owner heir)

/-! All the way round.  Where nothing is handed out, a page comes from the
bottom of the window and from slot 0; given back, it can be had again. -/

structure Idle (base : Nat) (memory : Allocator) : Prop where
  layout : memory.Layout
  base_eq : memory.windowBase = base
  vacant : ∀ slot region, ¬ memory.Holds slot region
  roomy : 0 < memory.totalPages

def bottom : Placement := ⟨0, 0, 1⟩

section Idle

variable {base : Nat}

theorem Idle.ofWindow {size : Nat}
    (accepted : ofWindow base size = .ok memory) : memory.Idle base := by
  have layout := Layout.ofWindow accepted
  obtain ⟨⟨_, roomy, _⟩, rfl⟩ := ofWindow_eq_ok_iff.mp accepted
  exact ⟨layout, rfl, holds_empty, roomy⟩

theorem Idle.region_eq_none (idle : memory.Idle base) (slot : Fin 128) :
    memory.slots[slot].region = none :=
  Option.eq_none_iff_forall_ne_some.mpr (idle.vacant slot)

theorem Idle.isTaken (idle : memory.Idle base) (page : Nat) :
    memory.pages.isTaken page = false := by
  rw [← Bool.not_eq_true, idle.layout.taken_iff]
  rintro ⟨slot, region, holds, _⟩
  exact idle.vacant slot region holds

theorem Idle.freePages (idle : memory.Idle base) :
    memory.freePages = memory.totalPages := by
  have conserved := idle.layout.conserved
  rw [Finset.sum_eq_zero] at conserved
  · exact conserved
  · exact fun slot _ => pagesAt_of_vacant (idle.region_eq_none slot)

theorem Idle.place? (idle : memory.Idle base) :
    memory.place? pageSize = .ok bottom := by
  have enough : ¬ memory.freePages < 1 := by
    rw [idle.freePages]
    exact Nat.not_lt.mpr idle.roomy
  have slot : Slots.first? memory.slots RegionSlot.isVacant = some 0 := by
    apply Slots.first?_of_accepts_zero
    rw [RegionSlot.isVacant, idle.region_eq_none]
    rfl
  have run : memory.pages.firstRun? memory.totalPages 1 = some 0 := by
    rw [PageMap.firstRun?, PageMap.runFrom?, if_pos idle.roomy, idle.isTaken]
    rfl
  simp only [Allocator.place?, show pagesFor pageSize = 1 from rfl,
    if_neg enough, slot, run]
  rfl

theorem Idle.allocate (idle : memory.Idle base) (owner : ProcessId) :
    memory.allocate pageSize owner = .ok (memory.grant bottom owner) := by
  rw [Allocator.allocate, idle.place?]

theorem Idle.vacate (idle : memory.Idle base) (owner : ProcessId) :
    ((memory.grant bottom owner).memory.vacate bottom.slot).Idle base := by
  have granted : (memory.grant bottom owner).memory.Layout :=
    idle.layout.grant (fits_of_place? idle.place?)
  refine ⟨granted.vacate bottom.slot, ?_, ?_, ?_⟩
  · rw [windowBase_vacate]
    exact idle.base_eq
  · intro slot region holds
    obtain ⟨away, held⟩ := (holds_vacate slot region).mp holds
    rcases (holds_grant slot region).mp held with ⟨here, _⟩ | ⟨_, old⟩
    · exact away here
    · exact idle.vacant slot region old
  · rw [totalPages_vacate]
    exact idle.roomy

theorem Idle.generation_vacate (idle : memory.Idle base)
    (owner : ProcessId) :
    ((memory.grant bottom owner).memory.vacate
        bottom.slot).slots[bottom.slot].generation =
      memory.slots[bottom.slot].generation + 1 := by
  rw [slots_vacate_self (holds_granted memory bottom owner)]
  exact congrArg (· + 1) (generation_granted (idle.allocate owner))

theorem Idle.releaseAt (idle : memory.Idle base) (owner : ProcessId) :
    (memory.grant bottom owner).memory.releaseAt base owner =
      .ok ((memory.grant bottom owner).memory.vacate bottom.slot) := by
  have holds :
      (memory.grant bottom owner).memory.slots[bottom.slot].region =
        some (memory.grant bottom owner).region :=
    holds_granted memory bottom owner
  have starts : (memory.grant bottom owner).region.base = base := by
    simp [Allocator.grant, bottom, idle.base_eq]
  have first : (memory.grant bottom owner).memory.slotAt? base =
      some bottom.slot := by
    apply Slots.first?_of_accepts_zero
    change RegionSlot.startsAt
      (memory.grant bottom owner).memory.slots[bottom.slot] base = true
    rw [RegionSlot.startsAt, holds]
    exact decide_eq_true starts
  have found : (memory.grant bottom owner).memory.find? base =
      some ((memory.grant bottom owner).handle,
        (memory.grant bottom owner).region) := by
    have generation := generation_granted (idle.allocate owner)
    rw [find?, first, Option.bind_eq_bind, Option.bind_some, holds]
    exact congrArg (fun generation =>
      some (RegionHandle.mk bottom.slot generation, _)) generation
  rw [Allocator.releaseAt, found]
  exact release_of_region? (region?_granted memory bottom owner)

def round (base : Nat) : List MemoryRequest :=
  [.allocate pageSize ⟨1⟩, .releaseAt base ⟨1⟩]

theorem Idle.afterAll_round (idle : memory.Idle base) :
    memory.afterAll (round base) =
      (memory.grant bottom ⟨1⟩).memory.vacate bottom.slot := by
  rw [round, afterAll, List.foldl_cons, List.foldl_cons, List.foldl_nil,
    after, idle.allocate, after]
  dsimp only
  rw [idle.releaseAt]

theorem Idle.afterAll_rounds (idle : memory.Idle base) (count : Nat) :
    (memory.afterAll (List.replicate count (round base)).flatten).Idle base ∧
    (memory.afterAll (List.replicate count
        (round base)).flatten).slots[bottom.slot].generation =
      memory.slots[bottom.slot].generation + UInt16.ofNat count := by
  induction count generalizing memory with
  | zero => exact ⟨idle, (UInt16.add_zero _).symm⟩
  | succ count ih =>
      have next := idle.vacate ⟨1⟩
      have generation := idle.generation_vacate ⟨1⟩
      have split : memory.afterAll
          (List.replicate (count + 1) (round base)).flatten =
            (memory.afterAll (round base)).afterAll
              (List.replicate count (round base)).flatten :=
        List.foldl_append
      rw [← idle.afterAll_round] at next generation
      obtain ⟨last, later⟩ := ih next
      rw [split, later, generation, UInt16.add_assoc, Nat.add_comm,
        UInt16.ofNat_add]
      exact ⟨last, rfl⟩

end Idle

/-- A handle is dead unless its slot holds a region and has been released a
multiple of 65536 times since the handle was made, which includes never. -/
theorem kept_handle_dead_iff {bytes : Nat} {owner : ProcessId} {grant : Grant}
    (allocated : memory.allocate bytes owner = .ok grant)
    (later : List MemoryRequest) :
    ((grant.memory.afterAll later).region? grant.handle = none ∧
      ∀ claimant,
        (grant.memory.afterAll later).release grant.handle claimant =
          .error .alreadyReleased) ↔
      (2 ^ 16 ∣ grant.memory.releases grant.handle.slot later →
        (grant.memory.afterAll later).slots[grant.handle.slot].region =
          none) := by
  have generation :=
    generation_afterAll grant.memory later grant.handle.slot
  have current :
      (grant.memory.afterAll later).slots[grant.handle.slot].generation =
          grant.handle.generation ↔
        2 ^ 16 ∣ grant.memory.releases grant.handle.slot later := by
    rw [generation, generation_granted allocated, UInt16.add_eq_left,
      ofNat_eq_zero_iff]
  rw [← current, ← region?_eq_none_iff]
  exact ⟨And.left, fun gone => ⟨gone, release_of_region?_eq_none gone⟩⟩

theorem kept_handle_dead_after_reuse :
    ∃ fresh grant, ofWindow 0x48000000 0x4000 = .ok fresh ∧
      fresh.allocate pageSize ⟨1⟩ = .ok grant ∧
      (grant.memory.afterAll [.release grant.handle ⟨1⟩,
        .allocate pageSize ⟨2⟩]).slots[grant.handle.slot].region ≠ none ∧
      ((grant.memory.afterAll [.release grant.handle ⟨1⟩,
          .allocate pageSize ⟨2⟩]).region? grant.handle = none ∧
        ∀ claimant,
          (grant.memory.afterAll [.release grant.handle ⟨1⟩,
            .allocate pageSize ⟨2⟩]).release grant.handle claimant =
              .error .alreadyReleased) := by
  have accepted : ofWindow 0x48000000 0x4000 = .ok _ :=
    ofWindow_eq_ok_iff.mpr ⟨by decide, rfl⟩
  have allocated := (Idle.ofWindow accepted).allocate ⟨1⟩
  refine ⟨_, _, accepted, allocated, by decide +kernel,
    (kept_handle_dead_iff allocated _).mpr fun spent => ?_⟩
  exact absurd spent (by decide +kernel)

/-- A handle that has been spent names a region of somebody else's once its
slot has been released 65536 times. -/
theorem spent_handle_names_again :
    ∃ fresh first released second,
      ofWindow 0x48000000 0x4000 = .ok fresh ∧
      fresh.allocate pageSize ⟨1⟩ = .ok first ∧
      first.memory.release first.handle ⟨1⟩ = .ok released ∧
      (released.afterAll (List.replicate 65535
        (round 0x48000000)).flatten).allocate pageSize ⟨2⟩ = .ok second ∧
      second.memory.region? first.handle = some second.region ∧
      second.memory.release first.handle ⟨2⟩ =
        .ok (second.memory.vacate first.handle.slot) := by
  obtain ⟨fresh, accepted⟩ :
      ∃ fresh, ofWindow 0x48000000 0x4000 = .ok fresh :=
    ⟨_, ofWindow_eq_ok_iff.mpr ⟨by decide, rfl⟩⟩
  have idle := Idle.ofWindow accepted
  obtain ⟨last, generation⟩ := (idle.vacate ⟨1⟩).afterAll_rounds 65535
  -- One release of the first region and one in each round: full circle.
  rw [idle.generation_vacate, UInt16.add_assoc,
    show (1 : UInt16) + UInt16.ofNat 65535 = 0 by decide,
    UInt16.add_zero] at generation
  have freed := release_of_region? (region?_granted fresh bottom ⟨1⟩)
  exact ⟨fresh, fresh.grant bottom ⟨1⟩, _, _, accepted, idle.allocate ⟨1⟩,
    freed, last.allocate ⟨2⟩, region?_regranted generation ⟨1⟩ ⟨2⟩,
    release_regranted generation ⟨1⟩ ⟨2⟩⟩

end Allocator

end Nucleus
