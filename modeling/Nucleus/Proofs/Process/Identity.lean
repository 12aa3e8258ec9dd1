import Mathlib.Data.Fintype.Card
import Nucleus.Proofs.Process.Standing

/-!
Fresh identifiers.  A search counts on until it meets a free one, and nothing
else ends it.  With a slot to spare, zero and the live processes rule out at
most sixteen identifiers, so one of seventeen successive candidates is free;
and whoever makes that many attempts finds what the search finds.
-/

namespace Nucleus

namespace ProcessTable

variable {table : ProcessTable}

/-- No process can be found under the identifier, and it is not the kernel's. -/
def Free (table : ProcessTable) (id : ProcessId) : Prop :=
  id ≠ ProcessId.kernel ∧ table.slotOf? id = none

theorem free_iff (candidate : UInt16) :
    table.Free ⟨candidate⟩ ↔
      ¬ (candidate = 0 ∨ (table.slotOf? ⟨candidate⟩).isSome = true) := by
  rw [Free, not_or, Option.not_isSome_iff_eq_none, ne_eq, ProcessId.kernel,
    ProcessId.mk.injEq]

def count (table : ProcessTable) : ProcessTable :=
  { table with nextId := table.nextId + 1 }

/-- A search tries one candidate after the other, from the counter on, until it
meets a free one.  It has no other end: a search among identifiers none of which
is free would go round for ever. -/
inductive Searches : ProcessTable → List UInt16 → ProcessId → ProcessTable →
    Prop
  | taken {table : ProcessTable} (free : table.Free ⟨table.nextId⟩) :
      Searches table [table.nextId] ⟨table.nextId⟩ table.count
  | passed {table after : ProcessTable} {tried : List UInt16} {id : ProcessId}
      (refused : ¬ table.Free ⟨table.nextId⟩)
      (later : Searches table.count tried id after) :
      Searches table (table.nextId :: tried) id after

section Search

variable {after : ProcessTable} {tried : List UInt16} {id : ProcessId}

theorem Searches.free (searches : table.Searches tried id after) :
    table.Free id := by
  induction searches with
  | taken free => exact free
  | passed _ _ ih => exact ih

theorem Searches.after_eq (searches : table.Searches tried id after) :
    after = { table with nextId := id.raw + 1 } := by
  induction searches with
  | taken => rfl
  | passed _ _ ih => exact ih

theorem Searches.ne_nil (searches : table.Searches tried id after) :
    tried ≠ [] := by
  cases searches <;> exact List.cons_ne_nil _ _

theorem Searches.unique (searches : table.Searches tried id after)
    {others : List UInt16} {other : ProcessId} {afterwards : ProcessTable}
    (again : table.Searches others other afterwards) :
    others = tried ∧ other = id := by
  induction searches generalizing others with
  | taken free =>
      cases again with
      | taken => exact ⟨rfl, rfl⟩
      | passed refused => exact absurd free refused
  | passed refused later ih =>
      cases again with
      | taken free => exact absurd free refused
      | passed _ laterAgain =>
          obtain ⟨rfl, rfl⟩ := ih laterAgain
          exact ⟨rfl, rfl⟩

theorem add_ofNat_succ (value : UInt16) (offset : Nat) :
    value + UInt16.ofNat (offset + 1) = value + 1 + UInt16.ofNat offset := by
  rw [Nat.add_comm, UInt16.ofNat_add, ← UInt16.add_assoc]
  rfl

/-- A search ends at the latest where a free identifier is known to be. -/
theorem exists_searches {offset : Nat}
    (free : table.Free ⟨table.nextId + UInt16.ofNat offset⟩) :
    ∃ tried id after, table.Searches tried id after ∧
      tried.length ≤ offset + 1 := by
  induction offset generalizing table with
  | zero =>
      rw [show table.nextId + UInt16.ofNat 0 = table.nextId from
        UInt16.add_zero _] at free
      exact ⟨_, _, _, .taken free, Nat.le_refl _⟩
  | succ offset ih =>
      by_cases first : table.Free ⟨table.nextId⟩
      · exact ⟨_, _, _, .taken first, Nat.le_add_left _ _⟩
      · rw [add_ofNat_succ] at free
        -- Seen from the next candidate, the free one is a step nearer.
        have counted : table.count.Free
            ⟨table.count.nextId + UInt16.ofNat offset⟩ := free
        obtain ⟨tried, id, after, searches, short⟩ := ih counted
        exact ⟨_, id, after, .passed first searches, Nat.succ_le_succ short⟩

theorem freshId_congr {other : ProcessTable} (same : other.slots = table.slots)
    (attempts : Nat) (candidate : UInt16) :
    other.freshId attempts candidate = table.freshId attempts candidate := by
  have sameSlot : ∀ id, other.slotOf? id = table.slotOf? id := fun id => by
    rw [slotOf?, slotOf?, same]
  induction attempts generalizing candidate with
  | zero => rfl
  | succ attempts ih => rw [freshId, freshId, ih, sameSlot]

/-- Whoever makes enough attempts finds what the search finds. -/
theorem Searches.freshId_eq (searches : table.Searches tried id after)
    {attempts : Nat} (enough : tried.length ≤ attempts) :
    table.freshId attempts table.nextId = id := by
  induction searches generalizing attempts with
  | @taken table free =>
      rw [free_iff] at free
      cases attempts with
      | zero => cases enough
      | succ attempts => rw [freshId, if_neg free]
  | @passed table after tried id refused _ ih =>
      rw [free_iff, not_not] at refused
      cases attempts with
      | zero => cases enough
      | succ attempts =>
          rw [freshId, if_pos refused]
          have sameSlots : table.count.slots = table.slots := rfl
          rw [← freshId_congr sameSlots]
          exact ih (Nat.le_of_succ_le_succ enough)

end Search

theorem newId_reserve (table : ProcessTable) (used : Nat) :
    newId { table with used := used } = table.newId :=
  freshId_congr rfl 17 table.nextId

/-- The slot that rules a candidate out; zero may take a spare one. -/
private def rival (table : ProcessTable) (spare : Fin 16)
    (candidate : UInt16) : Fin 16 :=
  (table.slotOf? ⟨candidate⟩).getD spare

private theorem rival_injective {spare : Fin 16}
    (vacant : table.slots[spare].isLive = false) {first second : UInt16}
    (firstTaken : ¬ table.Free ⟨first⟩) (secondTaken : ¬ table.Free ⟨second⟩)
    (same : table.rival spare first = table.rival spare second) :
    first = second := by
  rw [free_iff, not_not] at firstTaken secondTaken
  unfold rival at same
  cases firstFound : table.slotOf? ⟨first⟩ with
  | none =>
      have firstZero : first = 0 := by simpa [firstFound] using firstTaken
      cases secondFound : table.slotOf? ⟨second⟩ with
      | none =>
          have secondZero : second = 0 := by
            simpa [secondFound] using secondTaken
          rw [firstZero, secondZero]
      | some slot =>
          obtain rfl : spare = slot := by
            simpa [firstFound, secondFound] using same
          rw [(live_of_slotOf? secondFound).1] at vacant
          cases vacant
  | some slot =>
      cases secondFound : table.slotOf? ⟨second⟩ with
      | none =>
          obtain rfl : slot = spare := by
            simpa [firstFound, secondFound] using same
          rw [(live_of_slotOf? firstFound).1] at vacant
          cases vacant
      | some other =>
          obtain rfl : slot = other := by
            simpa [firstFound, secondFound] using same
          have firstName := (live_of_slotOf? firstFound).2
          have secondName := (live_of_slotOf? secondFound).2
          exact ProcessId.mk.inj (firstName.symm.trans secondName)

theorem exists_free {spare : Fin 16}
    (vacant : table.slots[spare].isLive = false) (candidate : UInt16) :
    ∃ offset, offset < 17 ∧
      table.Free ⟨candidate + UInt16.ofNat offset⟩ := by
  by_contra none
  push Not at none
  have injective : Function.Injective fun offset : Fin 17 =>
      table.rival spare (candidate + UInt16.ofNat offset.val) := by
    intro first second same
    have equal := rival_injective vacant (none first.val first.isLt)
      (none second.val second.isLt) same
    have offsets := congrArg UInt16.toNat ((UInt16.add_right_inj _).mp equal)
    simp only [UInt16.toNat_ofNat'] at offsets
    omega
  have fewer := Fintype.card_le_of_injective _ injective
  simp only [Fintype.card_fin] at fewer
  omega

theorem exists_searches_of_vacant {spare : Fin 16}
    (vacant : table.slots[spare].isLive = false) :
    ∃ tried id after, table.Searches tried id after ∧ tried.length ≤ 17 := by
  obtain ⟨offset, soon, free⟩ := exists_free vacant table.nextId
  obtain ⟨tried, id, after, searches, short⟩ := exists_searches free
  exact ⟨tried, id, after, searches, short.trans soon⟩

theorem newId_free {spare : Fin 16}
    (vacant : table.slots[spare].isLive = false) : table.Free table.newId := by
  obtain ⟨tried, id, after, searches, soon⟩ :=
    exists_searches_of_vacant vacant
  rw [newId, searches.freshId_eq soon]
  exact searches.free

end ProcessTable

end Nucleus
