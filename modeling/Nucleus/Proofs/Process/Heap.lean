import Mathlib.Data.List.Perm.Basic
import Mathlib.Logic.Equiv.Basic
import Mathlib.Order.Nat
import Nucleus.Process.DeadlineQueue

/-!
The heap under the deadline queue.  Sifting moves one entry along a path until
no entry comes before its parent, and loses or doubles none; so does taking an
entry out.
-/

namespace Nucleus

namespace Sleeper

/-- The order of the queue: by deadline, then by identifier. -/
def NotAfter (first second : Sleeper) : Prop :=
  second.isBefore first = false

variable {first second third : Sleeper}

theorem notAfter_iff :
    first.NotAfter second ↔
      first.deadline < second.deadline ∨
        (first.deadline = second.deadline ∧ first.id.raw ≤ second.id.raw) := by
  simp only [NotAfter, isBefore, Bool.or_eq_false_iff, Bool.and_eq_false_iff,
    decide_eq_false_iff_not, Nat.not_lt, beq_eq_false_iff_ne,
    UInt16.lt_iff_toNat_lt, UInt16.le_iff_toNat_le]
  omega

theorem NotAfter.refl (sleeper : Sleeper) : sleeper.NotAfter sleeper :=
  notAfter_iff.mpr (.inr ⟨rfl, UInt16.le_refl _⟩)

theorem NotAfter.trans (earlier : first.NotAfter second)
    (later : second.NotAfter third) : first.NotAfter third := by
  rw [notAfter_iff] at earlier later ⊢
  rcases earlier with less | ⟨same, under⟩
  · rcases later with further | ⟨equal, _⟩ <;> exact .inl (by omega)
  · rcases later with further | ⟨equal, above⟩
    · exact .inl (by omega)
    · exact .inr ⟨same.trans equal, UInt16.le_trans under above⟩

theorem NotAfter.of_isBefore (before : first.isBefore second = true) :
    first.NotAfter second := by
  rw [notAfter_iff]
  simp only [isBefore, Bool.or_eq_true, decide_eq_true_eq, Bool.and_eq_true,
    beq_iff_eq] at before
  exact before.imp_right fun tied => ⟨tied.1, UInt16.le_of_lt tied.2⟩

theorem isBefore_trans (earlier : first.isBefore second = true)
    (later : second.isBefore third = true) :
    first.isBefore third = true := by
  simp only [isBefore, Bool.or_eq_true, decide_eq_true_eq, Bool.and_eq_true,
    beq_iff_eq, UInt16.lt_iff_toNat_lt] at earlier later ⊢
  omega

theorem not_isBefore_self (sleeper : Sleeper) :
    sleeper.isBefore sleeper = false := by
  simp [isBefore]

theorem NotAfter.deadline_le (notAfter : first.NotAfter second) :
    first.deadline ≤ second.deadline := by
  rcases notAfter_iff.mp notAfter with less | ⟨same, _⟩ <;> omega

end Sleeper

namespace DeadlineQueue

open Sleeper (NotAfter)

/-- The order between two places of the heap; a place outside says nothing. -/
def InOrder (entries : Array Sleeper) (upper lower : Nat) : Prop :=
  ∀ (upperInside : upper < entries.size) (lowerInside : lower < entries.size),
    entries[upper].NotAfter entries[lower]

def parent (index : Nat) : Nat := (index - 1) / 2

/-- No entry comes before its parent. -/
def Ordered (entries : Array Sleeper) : Prop :=
  ∀ child, 0 < child → InOrder entries (parent child) child

section InOrder

variable {entries : Array Sleeper} {upper middle lower : Nat}

theorem InOrder.trans (above : InOrder entries upper middle)
    (below : InOrder entries middle lower) (inside : middle < entries.size) :
    InOrder entries upper lower :=
  fun upperInside lowerInside =>
    (above upperInside inside).trans (below inside lowerInside)

theorem inOrder_swap {first second : Nat} (firstInside : first < entries.size)
    (secondInside : second < entries.size) :
    InOrder (entries.swap first second) upper lower ↔
      InOrder entries (Equiv.swap first second upper)
        (Equiv.swap first second lower) := by
  unfold InOrder
  simp only [Array.size_swap, Array.getElem_swap, Equiv.swap_apply_def]
  grind

theorem Ordered.notAfter_first (ordered : Ordered entries) {index : Nat}
    (inside : index < entries.size) :
    entries[0].NotAfter entries[index] := by
  induction index using Nat.strong_induction_on with
  | h index ih =>
      by_cases root : index = 0
      · subst root
        exact NotAfter.refl _
      · have smaller : parent index < index := by
          unfold parent
          omega
        exact (ih (parent index) smaller (smaller.trans inside)).trans
          (ordered index (by omega) (smaller.trans inside) inside)

theorem Ordered.pop (ordered : Ordered entries) : Ordered entries.pop := by
  intro child positive upperInside lowerInside
  rw [Array.size_pop] at upperInside lowerInside
  rw [Array.getElem_pop, Array.getElem_pop]
  exact ordered child positive (by omega) (by omega)

end InOrder

/-! Sifting up: only the place that the moving entry has reached may be out of
order with its parent, and its children are in order with that parent. -/

structure Rising (entries : Array Sleeper) (hole : Nat) : Prop where
  elsewhere : ∀ child, 0 < child → child ≠ hole →
    InOrder entries (parent child) child
  across : ∀ child, 0 < hole → 0 < child → parent child = hole →
    InOrder entries (parent hole) child

theorem Ordered.rising {entries : Array Sleeper} (ordered : Ordered entries)
    {hole : Nat} (inside : hole < entries.size) : Rising entries hole where
  elsewhere child positive _ := ordered child positive
  across child holePositive positive below := by
    have lower := ordered child positive
    rw [below] at lower
    exact (ordered hole holePositive).trans lower inside

theorem Rising.ordered {entries : Array Sleeper} {hole : Nat}
    (rising : Rising entries hole)
    (here : 0 < hole → InOrder entries (parent hole) hole) :
    Ordered entries := by
  intro child positive
  by_cases same : child = hole
  · subst same
    exact here positive
  · exact rising.elsewhere child positive same

theorem Rising.swap {entries : Array Sleeper} {hole : Nat}
    (rising : Rising entries hole) (positive : 0 < hole)
    (inside : hole < entries.size) (upperInside : parent hole < entries.size)
    (before : entries[hole].isBefore entries[parent hole] = true) :
    Rising (entries.swap hole (parent hole)) (parent hole) := by
  have above : parent hole < hole := by
    unfold parent
    omega
  have ahead : InOrder entries hole (parent hole) :=
    fun _ _ => NotAfter.of_isBefore before
  constructor
  · intro child childPositive away
    rw [inOrder_swap inside upperInside]
    by_cases here : child = hole
    · subst here
      rwa [Equiv.swap_apply_right, Equiv.swap_apply_left]
    · rw [Equiv.swap_apply_of_ne_of_ne here away]
      by_cases under : parent child = hole
      · rw [under, Equiv.swap_apply_left]
        exact rising.across child positive childPositive under
      · by_cases beside : parent child = parent hole
        · rw [beside, Equiv.swap_apply_right]
          have sibling := rising.elsewhere child childPositive here
          rw [beside] at sibling
          exact ahead.trans sibling upperInside
        · rw [Equiv.swap_apply_of_ne_of_ne under beside]
          exact rising.elsewhere child childPositive here
  · intro child upperPositive childPositive below
    have further : parent (parent hole) < parent hole := by
      simp only [parent] at upperPositive ⊢
      omega
    have grand := rising.elsewhere (parent hole) upperPositive above.ne
    rw [inOrder_swap inside upperInside,
      Equiv.swap_apply_of_ne_of_ne (further.trans above).ne further.ne]
    by_cases here : child = hole
    · rwa [here, Equiv.swap_apply_left]
    · have childAway : child ≠ parent hole := by
        rintro rfl
        exact further.ne below
      rw [Equiv.swap_apply_of_ne_of_ne here childAway]
      have sibling := rising.elsewhere child childPositive here
      rw [below] at sibling
      exact grand.trans sibling upperInside

theorem Rising.ordered_siftUp {entries : Array Sleeper} {hole : Nat}
    (rising : Rising entries hole) : Ordered (siftUp entries hole) := by
  -- Each swap moves the place that may be out of order to its parent.
  induction entries, hole using siftUp.induct with
  | case1 entries hole inside upper before ih =>
      rw [siftUp, dif_pos inside]
      simp only [upper] at before ih
      rw [if_pos before]
      exact ih (rising.swap inside.1 inside.2 _ before)
  | case2 entries hole inside upper notBefore =>
      rw [siftUp, dif_pos inside]
      simp only [upper] at notBefore
      rw [if_neg notBefore]
      exact rising.ordered fun _ _ _ => Bool.eq_false_iff.mpr notBefore
  | case3 entries hole outside =>
      rw [siftUp, dif_neg outside]
      exact rising.ordered fun positive _ inside =>
        absurd ⟨positive, inside⟩ outside

theorem siftUp_perm (entries : Array Sleeper) (index : Nat) :
    (siftUp entries index).Perm entries := by
  induction entries, index using siftUp.induct with
  | case1 entries index inside upper before ih =>
      rw [siftUp, dif_pos inside]
      simp only [upper] at before ih
      rw [if_pos before]
      exact ih.trans (Array.swap_perm _ _)
  | case2 entries index inside upper notBefore =>
      rw [siftUp, dif_pos inside]
      simp only [upper] at notBefore
      rw [if_neg notBefore]
  | case3 entries index outside => rw [siftUp, dif_neg outside]

/-! Sifting down: only the children of the place that the moving entry has
reached may be out of order with it, and they are in order with its parent. -/

structure Sinking (entries : Array Sleeper) (hole : Nat) : Prop where
  elsewhere : ∀ child, 0 < child → parent child ≠ hole →
    InOrder entries (parent child) child
  across : ∀ child, 0 < hole → 0 < child → parent child = hole →
    InOrder entries (parent hole) child

section Children

variable {entries : Array Sleeper} {hole : Nat} {inside : hole < entries.size}

theorem eq_child {child : Nat} (positive : 0 < child)
    (below : parent child = hole) :
    child = 2 * hole + 1 ∨ child = 2 * hole + 2 := by
  unfold parent at below
  omega

theorem parent_earlierChild {child : Fin entries.size}
    (found : earlierChild? entries hole inside = some child) :
    0 < child.val ∧ parent child.val = hole := by
  unfold earlierChild? at found
  unfold parent
  grind

theorem isBefore_earlierChild {child : Fin entries.size}
    (found : earlierChild? entries hole inside = some child) :
    entries[child].isBefore entries[hole] = true := by
  unfold earlierChild? at found
  grind [Sleeper.isBefore_trans]

theorem inOrder_earlierChild {child : Fin entries.size}
    (found : earlierChild? entries hole inside = some child) {other : Nat}
    (positive : 0 < other) (below : parent other = hole) :
    InOrder entries child.val other := by
  intro upperInside lowerInside
  have either := eq_child positive below
  have first := isBefore_earlierChild found
  rw [NotAfter, Bool.eq_false_iff]
  intro before
  have further := Sleeper.isBefore_trans before first
  unfold earlierChild? at found
  grind [Sleeper.isBefore_trans, Sleeper.not_isBefore_self]

theorem inOrder_of_no_earlierChild
    (settled : earlierChild? entries hole inside = none) {child : Nat}
    (positive : 0 < child) (below : parent child = hole) :
    InOrder entries hole child := by
  intro upperInside lowerInside
  have either := eq_child positive below
  unfold earlierChild? at settled
  grind [NotAfter]

theorem siftDown_of_child {child : Fin entries.size}
    (found : earlierChild? entries hole inside = some child) :
    siftDown entries hole =
      siftDown (entries.swap hole child inside child.isLt) child := by
  rw [siftDown, dif_pos inside]
  split
  · rename_i other otherFound
    rw [found] at otherFound
    rw [Option.some.inj otherFound]
  · rename_i missing
    rw [found] at missing
    cases missing

theorem siftDown_of_no_child
    (settled : earlierChild? entries hole inside = none) :
    siftDown entries hole = entries := by
  rw [siftDown, dif_pos inside]
  split
  · rename_i other otherFound
    rw [settled] at otherFound
    cases otherFound
  · rfl

end Children

/-- A place whose entry may be out of order on either side: its children are in
order with its parent, and everybody else is in order. -/
structure Unsettled (entries : Array Sleeper) (hole : Nat) : Prop where
  elsewhere : ∀ child, 0 < child → child ≠ hole → parent child ≠ hole →
    InOrder entries (parent child) child
  across : ∀ child, 0 < hole → 0 < child → parent child = hole →
    InOrder entries (parent hole) child

theorem Sinking.unsettled {entries : Array Sleeper} {hole : Nat}
    (sinking : Sinking entries hole) : Unsettled entries hole where
  elsewhere child positive _ away := sinking.elsewhere child positive away
  across := sinking.across

/-- Once a child has taken the place, what sinks has its parent before it. -/
theorem Unsettled.swap {entries : Array Sleeper} {hole : Nat}
    (unsettled : Unsettled entries hole) {inside : hole < entries.size}
    {child : Fin entries.size}
    (found : earlierChild? entries hole inside = some child) :
    Sinking (entries.swap hole child inside child.isLt) child := by
  obtain ⟨childPositive, childBelow⟩ := parent_earlierChild found
  have below := lt_earlierChild found
  have upperAway : 0 < hole → parent hole < hole := by
    unfold parent
    omega
  constructor
  · intro other positive away
    rw [inOrder_swap inside child.isLt]
    by_cases here : other = child.val
    · rw [here, childBelow, Equiv.swap_apply_left, Equiv.swap_apply_right]
      exact fun _ _ => NotAfter.of_isBefore (isBefore_earlierChild found)
    · by_cases root : other = hole
      · subst root
        have upper := upperAway positive
        rw [Equiv.swap_apply_left,
          Equiv.swap_apply_of_ne_of_ne upper.ne (upper.trans below).ne]
        exact unsettled.across child positive childPositive childBelow
      · rw [Equiv.swap_apply_of_ne_of_ne root here]
        by_cases under : parent other = hole
        · rw [under, Equiv.swap_apply_left]
          exact inOrder_earlierChild found positive under
        · rw [Equiv.swap_apply_of_ne_of_ne under away]
          exact unsettled.elsewhere other positive root under
  · intro other _ positive under
    have deeper : child.val < other := by
      unfold parent at under
      omega
    rw [inOrder_swap inside child.isLt, childBelow, Equiv.swap_apply_left,
      Equiv.swap_apply_of_ne_of_ne (below.trans deeper).ne' deeper.ne']
    have lower := unsettled.elsewhere other positive
      (below.trans deeper).ne' (under.trans_ne below.ne')
    rwa [under] at lower

theorem Sinking.ordered_siftDown {entries : Array Sleeper} {hole : Nat}
    (sinking : Sinking entries hole) : Ordered (siftDown entries hole) := by
  -- After a swap the entries above the child are in order for good, so only
  -- the child's own children are left to compare with.
  induction entries, hole using siftDown.induct with
  | case1 entries hole inside child found ih =>
      rw [siftDown_of_child found]
      exact ih (sinking.unsettled.swap found)
  | case2 entries hole inside settled =>
      rw [siftDown_of_no_child settled]
      intro child positive
      by_cases below : parent child = hole
      · rw [below]
        exact inOrder_of_no_earlierChild settled positive below
      · exact sinking.elsewhere child positive below
  | case3 entries hole outside =>
      rw [siftDown, dif_neg outside]
      intro child positive
      by_cases below : parent child = hole
      · rw [below]
        exact fun upperInside _ => absurd upperInside outside
      · exact sinking.elsewhere child positive below

theorem siftDown_perm (entries : Array Sleeper) (index : Nat) :
    (siftDown entries index).Perm entries := by
  induction entries, index using siftDown.induct with
  | case1 entries index inside child found ih =>
      rw [siftDown_of_child found]
      exact ih.trans (Array.swap_perm _ _)
  | case2 entries index inside settled => rw [siftDown_of_no_child settled]
  | case3 entries index outside => rw [siftDown, dif_neg outside]

/-- Either the entry sinks, and nothing is out of order any more, or it stays
and may have to rise. -/
theorem Unsettled.rising_siftDown {entries : Array Sleeper} {hole : Nat}
    (unsettled : Unsettled entries hole) (inside : hole < entries.size) :
    Rising (siftDown entries hole) hole := by
  cases found : earlierChild? entries hole inside with
  | some child =>
      rw [siftDown_of_child found]
      apply (unsettled.swap found).ordered_siftDown.rising
      rw [(siftDown_perm _ _).size_eq, Array.size_swap]
      exact inside
  | none =>
      rw [siftDown_of_no_child found]
      refine ⟨fun child positive away => ?_, unsettled.across⟩
      by_cases below : parent child = hole
      · rw [below]
        exact inOrder_of_no_earlierChild found positive below
      · exact unsettled.elsewhere child positive away below

section Removal

variable {entries : Array Sleeper} {index : Nat}

theorem removeAt_of_lt (inside : index + 1 < entries.size) :
    removeAt entries index =
      siftUp (siftDown (fillGap entries index inside) index) index := by
  rw [removeAt, dif_pos inside]

theorem size_fillGap (inside : index + 1 < entries.size) :
    (fillGap entries index inside).size = entries.size - 1 := by
  rw [fillGap, Array.size_pop, Array.size_set]

open scoped List in
theorem fillGap_perm (inside : index + 1 < entries.size) :
    (entries[index] :: (fillGap entries index inside).toList).Perm
      entries.toList := by
  obtain ⟨list⟩ := entries
  obtain rfl | ⟨front, last, rfl⟩ := List.eq_nil_or_concat list
  · cases inside
  · simp only [List.concat_eq_append, List.size_toArray, List.length_append,
      List.length_cons, List.length_nil, Nat.add_lt_add_iff_right] at inside
    simp only [fillGap, Array.toList_pop, Array.toList_set]
    simp only [List.concat_eq_append, List.getElem_toArray,
      List.getElem_append_left inside, List.size_toArray, List.length_append,
      List.length_cons, List.length_nil, Nat.zero_add, Nat.add_sub_cancel,
      List.getElem_concat_length, List.set_append_left _ _ inside,
      List.dropLast_concat]
    calc front[index] :: front.set index last
        _ ~ front[index] :: last :: front.eraseIdx index :=
          (List.set_perm_cons_eraseIdx inside last).cons _
        _ ~ last :: front[index] :: front.eraseIdx index := .swap _ _ _
        _ ~ last :: front := (List.getElem_cons_eraseIdx_perm inside).cons _
        _ ~ front ++ [last] := (List.perm_append_singleton last front).symm

theorem InOrder.fillGap {upper lower : Nat}
    (inOrder : InOrder entries upper lower)
    (inside : index + 1 < entries.size) (upperAway : upper ≠ index)
    (lowerAway : lower ≠ index) :
    InOrder (fillGap entries index inside) upper lower := by
  intro upperInside lowerInside
  have size := size_fillGap inside
  simp only [DeadlineQueue.fillGap, Array.getElem_pop]
  rw [Array.getElem_set_ne _ _ upperAway.symm,
    Array.getElem_set_ne _ _ lowerAway.symm]
  exact inOrder (by omega) (by omega)

theorem Ordered.unsettled_fillGap (ordered : Ordered entries)
    (inside : index + 1 < entries.size) :
    Unsettled (fillGap entries index inside) index := by
  have rising := ordered.rising (Nat.lt_of_succ_lt inside)
  constructor
  · intro child positive away upperAway
    exact (ordered child positive).fillGap inside upperAway away
  · intro child holePositive positive below
    have upper : parent index ≠ index := by
      unfold parent
      omega
    have lower : child ≠ index := by
      unfold parent at below
      omega
    exact (rising.across child holePositive positive below).fillGap inside
      upper lower

theorem removeAt_perm (inside : index < entries.size) :
    (entries[index] :: (removeAt entries index).toList).Perm
      entries.toList := by
  by_cases last : index + 1 < entries.size
  · rw [removeAt_of_lt last]
    have sifted := (siftUp_perm _ index).trans
      (siftDown_perm (fillGap entries index last) index)
    exact (sifted.toList.cons _).trans (fillGap_perm last)
  · obtain rfl : index = entries.size - 1 := by omega
    rw [removeAt, dif_neg last, Array.toList_pop]
    have nonempty : entries.toList ≠ [] := by
      rw [← List.length_pos_iff]
      exact Nat.zero_lt_of_lt inside
    have joined := List.dropLast_concat_getLast nonempty
    rw [List.getLast_eq_getElem] at joined
    exact (List.perm_append_singleton _ _).symm.trans (.of_eq joined)

theorem Ordered.removeAt (ordered : Ordered entries) (index : Nat) :
    Ordered (removeAt entries index) := by
  by_cases inside : index + 1 < entries.size
  · rw [removeAt_of_lt inside]
    have unsettled := ordered.unsettled_fillGap inside
    have held : index < (fillGap entries index inside).size := by
      rw [size_fillGap]
      omega
    exact (unsettled.rising_siftDown held).ordered_siftUp
  · rw [DeadlineQueue.removeAt, dif_neg inside]
    exact ordered.pop

end Removal

end DeadlineQueue

end Nucleus
