import Nucleus.Proofs.Process.Creation

/-!
Headroom.  The table and the allocator form sums of addresses: the end of the
window, of a region, of a stack.  None of them is larger than the end of the
window, so words hold them all exactly if they hold that one.
-/

namespace Nucleus

namespace Quarters

open Allocator (ofWindow)

variable {before after quarters : Quarters} {base size : Nat}
  {memory : Allocator}

structure Confined (quarters : Quarters) : Prop where
  sound : quarters.Sound
  stackTops : ∀ slot : Fin 16,
    quarters.table.slots[slot].stackTop ≤ quarters.memory.windowStop

theorem Confined.regions (confined : quarters.Confined) {slot : Fin 128}
    {region : Region} (holds : quarters.memory.Holds slot region) :
    region.stop ≤ quarters.memory.windowStop :=
  (confined.sound.memory.consistent.inside slot region holds).2

theorem stop_granted_le (layout : memory.Layout)
    {placement : Allocator.Placement} (fits : memory.Fits placement)
    (owner : ProcessId) :
    (memory.grant placement owner).region.stop ≤ memory.windowStop :=
  ((layout.grant fits).consistent.inside placement.slot _
    (Allocator.holds_granted memory placement owner)).2

theorem stackTop_advance (table : ProcessTable) (slot : Fin 16) :
    table.advance.1.slots[slot].stackTop = table.slots[slot].stackTop := by
  obtain ⟨state, content⟩ := (ProcessTable.restates_advance table).content slot
  rw [content]
  rfl

theorem Confined.stackTops_of_becomes (confined : before.Confined)
    (becomes : Becomes before after) (slot : Fin 16) :
    after.table.slots[slot].stackTop ≤ before.memory.windowStop := by
  have here := confined.stackTops slot
  cases becomes with
  | kept | served | renumbered => exact here
  | seated request seat used placement found fits =>
      dsimp only
      rw [ProcessTable.slots_seat]
      split
      · exact stop_granted_le confined.sound.memory fits before.table.newId
      · exact here
  | cleared place live =>
      dsimp only
      rw [ProcessTable.slots_clearSlot]
      split
      · exact Nat.zero_le _
      · exact here
  | focused place live =>
      dsimp only
      rw [ProcessTable.slots_focusOn]
      exact here
  | revised place change live =>
      dsimp only
      rw [ProcessTable.slots_update]
      split
      · exact confined.stackTops place
      · exact here
  | restated place state live stays idle =>
      dsimp only
      rw [ProcessTable.slots_setState]
      exact here
  | decided =>
      dsimp only
      rw [stackTop_advance]
      exact here

theorem Becomes.confined (becomes : Becomes before after)
    (confined : before.Confined) : after.Confined := by
  refine ⟨becomes.sound confined.sound, fun slot => ?_⟩
  rw [Allocator.windowStop_congr becomes.window]
  exact confined.stackTops_of_becomes becomes slot

theorem confined_opened (base size : Nat) : (opened base size).Confined := by
  refine ⟨sound_opened base size, fun slot => ?_⟩
  have vacant : (opened base size).table.slots[slot] = Process.vacant :=
    Slots.get_replicate _ slot
  rw [vacant]
  exact Nat.zero_le _

/-- Words hold every sum of addresses that is formed. -/
structure Safe (quarters : Quarters) : Prop where
  window : quarters.memory.windowStop ≤ maxWord
  regions : ∀ slot region, quarters.memory.Holds slot region →
    region.overflows = false
  stackTops : ∀ slot : Fin 16,
    overflowsWord quarters.table.slots[slot].stackTop = false
  releases : ∀ address, quarters.memory.releaseOverflows address = false
  grants : ∀ size owner grant,
    quarters.memory.allocate size owner = .ok grant → grant.overflows = false
  creations : ∀ request,
    (quarters.table.create quarters.memory request).overflows = false

theorem not_overflowsWord {sum bound : Nat} (small : sum ≤ bound)
    (fits : bound ≤ maxWord) : overflowsWord sum = false := by
  rw [Bool.eq_false_iff, ne_eq, overflowsWord_iff, Nat.not_lt]
  exact small.trans fits

theorem Confined.safe (confined : quarters.Confined)
    (fits : quarters.memory.windowStop ≤ maxWord) : quarters.Safe where
  window := fits
  regions _ _ holds :=
    not_overflowsWord (confined.regions holds) fits
  stackTops slot := not_overflowsWord (confined.stackTops slot) fits
  releases address := by
    rw [Allocator.releaseOverflows,
      not_overflowsWord (Nat.le_refl _) fits, Bool.and_false]
  grants size owner grant allocated := by
    obtain ⟨placement, placed, rfl⟩ := Allocator.allocate_eq_ok allocated
    have stop := stop_granted_le confined.sound.memory placed owner
    exact not_overflowsWord ((Nat.le_add_right _ _).trans stop) fits
  creations request := by
    have stackTops := confined.stackTops_of_becomes
      (becomes_create quarters request)
    unfold ProcessTable.Creation.overflows
    split
    · exact not_overflowsWord (stackTops _) fits
    · rfl

/-- Everything that leads to an overflow before anything else has happened. -/
structure Exposed (quarters : Quarters) : Prop where
  release : ∃ address, quarters.memory.releaseOverflows address = true
  region : ∃ request slot region,
    (quarters.act (.request request)).memory.Holds slot region ∧
      region.overflows = true
  creation : ∃ request,
    (quarters.table.create quarters.memory request).overflows = true
  stack : ∃ request, ∃ slot : Fin 16,
    overflowsWord (quarters.act (.create request)).table.slots[slot].stackTop =
      true

theorem memory_opened (accepted : ofWindow base size = .ok memory) :
    (opened base size).memory = memory := by
  simp only [opened, accepted]

theorem windowStop_of_accepted (accepted : ofWindow base size = .ok memory) :
    memory.windowStop = base + size / pageSize * pageSize := by
  obtain ⟨_, rfl⟩ := Allocator.ofWindow_eq_ok_iff.mp accepted
  rfl

theorem exists_whole_grant (accepted : ofWindow base size = .ok memory)
    (owner : ProcessId) :
    ∃ grant, memory.allocate memory.windowSize owner = .ok grant ∧
      grant.region.stop = memory.windowStop := by
  have layout := Allocator.Layout.ofWindow accepted
  obtain ⟨⟨_, positive, _⟩, fresh⟩ :=
    Allocator.ofWindow_eq_ok_iff.mp accepted
  have pages : memory.windowSize ⌈/⌉ pageSize = memory.totalPages := by
    rw [← Allocator.pagesFor_eq_ceilDiv]
    simp only [Allocator.pagesFor, Allocator.windowSize, pageSize]
    omega
  have asked : 0 < memory.windowSize := by
    rw [fresh]
    exact Nat.mul_pos positive (by decide)
  have vacancy : ∃ slot : Fin 128, memory.slots[slot].region = none := by
    refine ⟨0, ?_⟩
    rw [fresh]
    rfl
  have room : memory.Room (memory.windowSize ⌈/⌉ pageSize) 0 := by
    refine ⟨by omega, fun page _ _ => ?_⟩
    rw [fresh]
    exact PageMap.isTaken_empty page
  obtain ⟨grant, allocated⟩ :
      ∃ grant, memory.allocate memory.windowSize owner = .ok grant :=
    layout.allocates_iff.mpr ⟨asked, vacancy, 0, room⟩
  obtain ⟨first, settles⟩ := layout.settles_of_allocate allocated
  have lowest := settles.lowest.1.1
  obtain rfl : first = 0 := by omega
  refine ⟨grant, allocated, ?_⟩
  rw [settles.region_eq, pages, Region.stop, Nat.zero_mul, Nat.add_zero]
  rfl

theorem exists_whole_creation (accepted : ofWindow base size = .ok memory) :
    ∃ request, ∃ slot : Fin 16,
      let created := (opened base size).table.create memory request
      (created.overflows = true ↔ maxWord < memory.windowStop) ∧
        created.table.slots[slot].stackTop = memory.windowStop := by
  let request : SpawnRequest := ⟨0, memory.windowSize, .user, "", 0⟩
  have creates := (sound_opened base size).creates request
  rw [memory_opened accepted] at creates
  cases creates with
  | failed cause outcome refuses spares =>
      obtain ⟨grant, allocated, _⟩ := exists_whole_grant accepted ⟨1⟩
      cases refuses with
      | stackless nothing =>
          rw [show memory.windowSize = 0 from nothing, Allocator.allocate]
            at allocated
          cases allocated
      | full _ used => cases used
      | cramped _ _ cause refuses =>
          rw [memory_opened accepted] at refuses
          rw [Allocator.allocate_eq_error_iff.mpr refuses] at allocated
          cases allocated
  | seated id slot grant outcome seats =>
      obtain ⟨whole, granted, stop⟩ := exists_whole_grant accepted id
      have allocated := seats.allocated
      rw [memory_opened accepted] at allocated
      obtain rfl : grant = whole :=
        Except.ok.inj (allocated.symm.trans granted)
      refine ⟨request, slot, ?_, ?_⟩
      · rw [seats.crash_iff, stop]
      · rw [seats.newcomer]
        exact stop

theorem exposed_opened (accepted : ofWindow base size = .ok memory)
    (high : maxWord < memory.windowStop) : (opened base size).Exposed := by
  have opening := memory_opened accepted
  obtain ⟨request, slot, crash_iff, stackTop⟩ :=
    exists_whole_creation accepted
  have overflows : overflowsWord memory.windowStop = true :=
    (overflowsWord_iff _).mpr high
  constructor
  · obtain ⟨_, fresh⟩ := Allocator.ofWindow_eq_ok_iff.mp accepted
    have nobody : memory.find? memory.windowBase = none := by
      rw [Allocator.find?_eq_none_iff, fresh]
      rintro ⟨slot, region, holds, _⟩
      exact Allocator.holds_empty slot region holds
    refine ⟨memory.windowBase, ?_⟩
    rw [opening, Allocator.releaseOverflows, nobody, overflows]
    simp
  · obtain ⟨grant, allocated, stop⟩ := exists_whole_grant accepted ⟨1⟩
    obtain ⟨placement, _, rfl⟩ := Allocator.allocate_eq_ok allocated
    refine ⟨.allocate memory.windowSize ⟨1⟩, placement.slot,
      (memory.grant placement ⟨1⟩).region, ?_, ?_⟩
    · simp only [act, opening, Allocator.after, allocated]
      exact Allocator.holds_granted memory placement ⟨1⟩
    · rw [Region.overflows, stop, overflows]
  · refine ⟨request, ?_⟩
    rw [opening]
    exact crash_iff.mpr high
  · refine ⟨request, slot, ?_⟩
    simp only [act, opening]
    rw [stackTop, overflows]

theorem safe_opened (accepted : ofWindow base size = .ok memory)
    (fits : memory.windowStop ≤ maxWord) (actions : List Action) :
    ((opened base size).actAll actions).Safe := by
  have kept := actAll_induction (motive := fun quarters =>
      quarters.Confined ∧ quarters.memory.window = memory.window)
    (fun _ _ becomes confined => ⟨becomes.confined confined.1,
      becomes.window.trans confined.2⟩)
    ⟨confined_opened base size,
      congrArg Allocator.window (memory_opened accepted)⟩ actions
  apply kept.1.safe
  rw [Allocator.windowStop_congr kept.2]
  exact fits

/-- An accepted window is safe from overflow, whatever is asked of the table
and the allocator, exactly if a word holds its end.  If not, every kind of sum
overflows at once. -/
theorem window_safe_iff {base size : Nat} {memory : Allocator}
    (accepted : ofWindow base size = .ok memory) :
    ((∀ actions, ((opened base size).actAll actions).Safe) ↔
      base + size / pageSize * pageSize ≤ maxWord) ∧
    (maxWord < base + size / pageSize * pageSize →
      (opened base size).Exposed) := by
  have stop := windowStop_of_accepted accepted
  rw [← stop]
  refine ⟨⟨fun safe => ?_, safe_opened accepted⟩, exposed_opened accepted⟩
  have window := (safe []).window
  rw [actAll_nil, memory_opened accepted] at window
  exact window

theorem window_safe_below_the_top :
    ∃ memory, ofWindow 0x48000000 0x4000 = .ok memory ∧
      ∀ actions, ((opened 0x48000000 0x4000).actAll actions).Safe := by
  have accepted : ofWindow 0x48000000 0x4000 = .ok _ :=
    Allocator.ofWindow_eq_ok_iff.mpr ⟨by decide, rfl⟩
  exact ⟨_, accepted, (window_safe_iff accepted).1.mpr (by decide)⟩

/-- The two topmost pages make an accepted window.  Its end overflows, and so
does that of a region or a stack that takes all of it. -/
theorem window_unsafe_at_the_top :
    let base := 0xffffffffffffe000
    let tenant : SpawnRequest := ⟨0x1000, 0x2000, .user, "top", 0⟩
    (∃ memory, ofWindow base 0x2000 = .ok memory) ∧
      (opened base 0x2000).memory.releaseOverflows base = true ∧
      (∃ region, ((opened base 0x2000).act (.request (.allocate 0x2000
        ⟨1⟩))).memory.Holds 0 region ∧ region.overflows = true) ∧
      ((opened base 0x2000).table.create (opened base 0x2000).memory
        tenant).overflows = true := by
  refine ⟨⟨_, Allocator.ofWindow_eq_ok_iff.mpr ⟨by decide, rfl⟩⟩, ?_,
    ⟨⟨0xffffffffffffe000, 0x2000, ⟨1⟩⟩, ?_, ?_⟩, ?_⟩
  · decide +kernel
  · unfold Allocator.Holds
    decide +kernel
  · decide +kernel
  · decide +kernel

end Quarters

end Nucleus
