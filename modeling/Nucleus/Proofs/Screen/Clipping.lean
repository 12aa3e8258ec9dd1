import Mathlib.Algebra.Order.Ring.Abs
import Mathlib.Algebra.Order.Ring.Int
import Mathlib.Logic.Function.Iterate
import Mathlib.Order.Interval.Set.UnorderedInterval
import Mathlib.Tactic.Linarith
import Nucleus.Screen.Segment

/-!
Clipping comes to an end.  A segment is settled once it lies in the box, or has
both ends beyond one edge; until then one of its ends moves onto an edge.  The
new end stays between the two old ones, so either both now lie beyond one edge,
or there is one direction less in which an end lies outside.  Hence four moves
are enough, none of them divides by zero, and every number fits its width.
-/

namespace Nucleus

/-- A signed number of so many bits can hold the value. -/
def FitsSigned (bits : Nat) (value : Int) : Prop :=
  -2 ^ (bits - 1) ≤ value ∧ value < 2 ^ (bits - 1)

def Point.Fits (point : Point) : Prop :=
  FitsSigned 32 point.x ∧ FitsSigned 32 point.y

instance (bits : Nat) (value : Int) : Decidable (FitsSigned bits value) :=
  inferInstanceAs (Decidable (_ ∧ _))

instance (point : Point) : Decidable point.Fits :=
  inferInstanceAs (Decidable (_ ∧ _))

theorem FitsSigned.mem_uIcc {bits : Nat} {first second value : Int}
    (left : FitsSigned bits first) (right : FitsSigned bits second)
    (between : value ∈ Set.uIcc first second) : FitsSigned bits value := by
  rw [Set.mem_uIcc] at between
  unfold FitsSigned at *
  omega

namespace Box

variable {box : Box} {point other : Point}

def BeyondRows (box : Box) (point : Point) : Prop :=
  point.y < box.top ∨ box.lastRow < point.y

def BeyondColumns (box : Box) (point : Point) : Prop :=
  point.x < box.left ∨ box.lastColumn < point.x

instance : Decidable (box.BeyondRows point) :=
  inferInstanceAs (Decidable (_ ∨ _))

instance : Decidable (box.BeyondColumns point) :=
  inferInstanceAs (Decidable (_ ∨ _))

/-- In how many directions the point lies outside. -/
def exposure (box : Box) (point : Point) : Nat :=
  (if box.BeyondRows point then 1 else 0) +
    if box.BeyondColumns point then 1 else 0

theorem exposure_le (box : Box) (point : Point) : box.exposure point ≤ 2 := by
  unfold exposure
  split_ifs <;> omega

theorem exposure_lt_of_rows (outer : box.BeyondRows point)
    (level : ¬ box.BeyondRows other)
    (columns : box.BeyondColumns other → box.BeyondColumns point) :
    box.exposure other < box.exposure point := by
  unfold exposure
  rw [if_pos outer, if_neg level]
  split_ifs with here there <;> first | omega | exact absurd (columns here) there

theorem exposure_lt_of_columns (outer : box.BeyondColumns point)
    (level : ¬ box.BeyondRows other) (within : ¬ box.BeyondColumns other) :
    box.exposure other < box.exposure point := by
  unfold exposure
  rw [if_pos outer, if_neg level, if_neg within]
  omega

theorem isEmpty_eq_false_iff :
    box.isEmpty = false ↔ box.left ≤ box.lastColumn ∧ box.top ≤ box.lastRow := by
  simp only [isEmpty, lastColumn, lastRow, right, bottom, Bool.or_eq_false_iff,
    beq_eq_false_iff_ne]
  omega

theorem isInside_outcode_iff :
    (box.outcode point).isInside = true ↔
      ¬ box.BeyondRows point ∧ ¬ box.BeyondColumns point := by
  simp only [Outcode.isInside, outcode, BeyondRows, BeyondColumns,
    Bool.not_eq_true', Bool.or_eq_false_iff, decide_eq_false_iff_not]
  tauto

theorem isInside_of_exposure_eq_zero (bare : box.exposure point = 0) :
    (box.outcode point).isInside = true := by
  rw [isInside_outcode_iff]
  unfold exposure at bare
  split_ifs at bare with rows columns columns <;>
    first | omega | exact ⟨rows, columns⟩

theorem contains_iff_isInside :
    box.contains point = true ↔ (box.outcode point).isInside = true := by
  simp only [contains_iff, isInside_outcode_iff, BeyondRows, BeyondColumns,
    lastColumn, lastRow]
  omega

theorem shares_outcode_iff :
    (box.outcode point).shares (box.outcode other) = true ↔
      point.x < box.left ∧ other.x < box.left ∨
        box.lastColumn < point.x ∧ box.lastColumn < other.x ∨
          point.y < box.top ∧ other.y < box.top ∨
            box.lastRow < point.y ∧ box.lastRow < other.y := by
  simp only [Outcode.shares, outcode, Bool.or_eq_true, Bool.and_eq_true,
    decide_eq_true_eq]
  tauto

end Box

/-- The numbers that a meeting with an edge is worked out from: where the start
stands along the edge, how far the segment goes along and across the edge, and
how far away from the start the edge is. -/
structure Crossing where
  origin : Int
  extent : Int
  depth : Int
  gap : Int

namespace Crossing

variable {crossing : Crossing}

def quotient (crossing : Crossing) : Int :=
  (crossing.extent * crossing.gap).tdiv crossing.depth

def place (crossing : Crossing) : Int :=
  crossing.origin + crossing.quotient

/-- Every number of the meeting fits the width in which it is worked out, and
nothing is divided by zero. -/
structure Fits (crossing : Crossing) : Prop where
  depth_ne_zero : crossing.depth ≠ 0
  extent : FitsSigned 64 crossing.extent
  depth : FitsSigned 64 crossing.depth
  gap : FitsSigned 64 crossing.gap
  product : FitsSigned 128 (crossing.extent * crossing.gap)
  quotient : FitsSigned 64 crossing.quotient
  place : FitsSigned 64 crossing.place

/-- The segment goes as far as the edge. -/
def Reaches (crossing : Crossing) : Prop :=
  0 < crossing.depth ∧ 0 ≤ crossing.gap ∧ crossing.gap ≤ crossing.depth ∨
    crossing.depth < 0 ∧ crossing.depth ≤ crossing.gap ∧ crossing.gap ≤ 0

theorem Reaches.depth_ne_zero (reaches : crossing.Reaches) :
    crossing.depth ≠ 0 := by
  rcases reaches with ⟨_, _, _⟩ | ⟨_, _, _⟩ <;> omega

theorem tdiv_mem_uIcc {extent gap depth : Int} (ahead : 0 < depth)
    (nonneg : 0 ≤ gap) (le : gap ≤ depth) :
    (extent * gap).tdiv depth ∈ Set.uIcc 0 extent := by
  have split := Int.mul_tdiv_add_tmod (extent * gap) depth
  rw [Set.mem_uIcc]
  rcases le_total 0 extent with right | left
  · have dividend : 0 ≤ extent * gap := mul_nonneg right nonneg
    have rest := Int.tmod_nonneg depth dividend
    refine .inl ⟨Int.tdiv_nonneg dividend ahead.le, ?_⟩
    nlinarith
  · have dividend : 0 ≤ -extent * gap := mul_nonneg (by omega) nonneg
    have quotient := Int.tdiv_nonneg dividend ahead.le
    have rest := Int.tmod_nonneg depth dividend
    rw [neg_mul, Int.neg_tdiv] at quotient
    rw [neg_mul, Int.neg_tmod] at rest
    refine .inr ⟨?_, by omega⟩
    nlinarith

theorem Reaches.quotient_mem (reaches : crossing.Reaches) :
    crossing.quotient ∈ Set.uIcc 0 crossing.extent := by
  unfold quotient
  rcases reaches with ⟨ahead, nonneg, le⟩ | ⟨behind, le, nonpos⟩
  · exact tdiv_mem_uIcc ahead nonneg le
  · have turned : crossing.extent * crossing.gap =
        -(crossing.extent * -crossing.gap) := by rw [mul_neg, neg_neg]
    rw [turned, Int.neg_tdiv, ← Int.tdiv_neg]
    exact tdiv_mem_uIcc (by omega) (by omega) (by omega)

/-- The place lies between the ends of the segment. -/
theorem Reaches.place_mem (reaches : crossing.Reaches) :
    crossing.place ∈
      Set.uIcc crossing.origin (crossing.origin + crossing.extent) := by
  have part := reaches.quotient_mem
  rw [Set.mem_uIcc] at part ⊢
  unfold place
  omega

theorem Reaches.gap_mem (reaches : crossing.Reaches) :
    crossing.gap ∈ Set.uIcc 0 crossing.depth := by
  unfold Reaches at reaches
  rw [Set.mem_uIcc]
  omega

theorem Reaches.fits (reaches : crossing.Reaches)
    (start : FitsSigned 32 crossing.origin)
    (finish : FitsSigned 32 (crossing.origin + crossing.extent))
    (depth : -2 ^ 32 < crossing.depth ∧ crossing.depth < 2 ^ 32) :
    crossing.Fits := by
  have gap := reaches.gap_mem
  have quotient := reaches.quotient_mem
  have place := start.mem_uIcc finish reaches.place_mem
  rw [Set.mem_uIcc] at gap quotient
  simp only [FitsSigned] at start finish place
  have product : |crossing.extent * crossing.gap| ≤ 2 ^ 32 * 2 ^ 32 := by
    rw [abs_mul]
    refine mul_le_mul ?_ ?_ (abs_nonneg _) (by omega) <;> rw [abs_le] <;> omega
  rw [abs_le] at product
  constructor <;> first | exact reaches.depth_ne_zero | unfold FitsSigned; omega

end Crossing

namespace Segment

variable {box : Box} {segment : Segment}

def rowCrossing (segment : Segment) (row : Int) : Crossing where
  origin := segment.start.x
  extent := segment.finish.x - segment.start.x
  depth := segment.finish.y - segment.start.y
  gap := row - segment.start.y

def columnCrossing (segment : Segment) (column : Int) : Crossing where
  origin := segment.start.y
  extent := segment.finish.y - segment.start.y
  depth := segment.finish.x - segment.start.x
  gap := column - segment.start.x

def crossing (segment : Segment) (box : Box) : Crossing :=
  let first := box.outcode segment.start
  let code := if first.isInside then box.outcode segment.finish else first
  if code.top then segment.rowCrossing box.top
  else if code.bottom then segment.rowCrossing box.lastRow
  else if code.right then segment.columnCrossing box.lastColumn
  else segment.columnCrossing box.left

theorem atRow_eq (segment : Segment) (row : Int) :
    segment.atRow row = ⟨(segment.rowCrossing row).place, row⟩ := rfl

theorem atColumn_eq (segment : Segment) (column : Int) :
    segment.atColumn column =
      ⟨column, (segment.columnCrossing column).place⟩ := rfl

/-- Of the two bounds of a range, the one that the first number lies beyond and
the second does not. -/
def Parts (low high outer other bound : Int) : Prop :=
  outer < low ∧ low ≤ other ∧ bound = low ∨
    high < outer ∧ other ≤ high ∧ bound = high

/-- A move takes an end onto an edge that it lies beyond and the other end does
not.  The start moves first, and either end moves to a row first. -/
inductive Move (box : Box) (segment : Segment) : Crossing → Segment → Prop
  | startToRow (row : Int)
      (parts : Parts box.top box.lastRow segment.start.y segment.finish.y row) :
      Move box segment (segment.rowCrossing row)
        ⟨segment.atRow row, segment.finish⟩
  | startToColumn (column : Int)
      (level : ¬ box.BeyondRows segment.start)
      (parts : Parts box.left box.lastColumn segment.start.x segment.finish.x
        column) :
      Move box segment (segment.columnCrossing column)
        ⟨segment.atColumn column, segment.finish⟩
  | finishToRow (row : Int)
      (inside : box.contains segment.start = true)
      (parts : Parts box.top box.lastRow segment.finish.y segment.start.y row) :
      Move box segment (segment.rowCrossing row)
        ⟨segment.start, segment.atRow row⟩
  | finishToColumn (column : Int)
      (inside : box.contains segment.start = true)
      (level : ¬ box.BeyondRows segment.finish)
      (parts : Parts box.left box.lastColumn segment.finish.x segment.start.x
        column) :
      Move box segment (segment.columnCrossing column)
        ⟨segment.start, segment.atColumn column⟩

def isInside (segment : Segment) (box : Box) : Bool :=
  (box.outcode segment.start).isInside && (box.outcode segment.finish).isInside

/-- Both ends lie beyond one edge. -/
def isOutside (segment : Segment) (box : Box) : Bool :=
  (box.outcode segment.start).shares (box.outcode segment.finish)

/-- The segment does not move any more. -/
def isSettled (segment : Segment) (box : Box) : Bool :=
  segment.isInside box || segment.isOutside box

def remains (segment : Segment) (box : Box) : Option Segment :=
  if segment.isInside box then some segment else none

theorem isInside_iff :
    segment.isInside box = true ↔
      box.contains segment.start = true ∧ box.contains segment.finish = true := by
  rw [isInside, Bool.and_eq_true, Box.contains_iff_isInside,
    Box.contains_iff_isInside]

theorem isOutside_iff :
    segment.isOutside box = true ↔
      segment.start.x < box.left ∧ segment.finish.x < box.left ∨
        box.lastColumn < segment.start.x ∧ box.lastColumn < segment.finish.x ∨
          segment.start.y < box.top ∧ segment.finish.y < box.top ∨
            box.lastRow < segment.start.y ∧ box.lastRow < segment.finish.y :=
  Box.shares_outcode_iff

theorem move_clipEnd (filled : box.isEmpty = false)
    (unsettled : segment.isSettled box = false) :
    Move box segment (segment.crossing box) (segment.clipEnd box) := by
  rw [Box.isEmpty_eq_false_iff] at filled
  obtain ⟨partly, apart⟩ := Bool.or_eq_false_iff.mp unsettled
  have apart := mt isOutside_iff.mpr (Bool.eq_false_iff.mp apart)
  have partly := mt isInside_iff.mpr (Bool.eq_false_iff.mp partly)
  unfold crossing clipEnd meet
  by_cases inside : (box.outcode segment.start).isInside = true
  · have held := Box.contains_iff_isInside.mpr inside
    have outside : ¬ box.contains segment.finish = true :=
      fun last => partly ⟨held, last⟩
    simp only [inside, if_true]
    rw [Box.isInside_outcode_iff] at inside
    rw [Box.contains_iff_isInside, Box.isInside_outcode_iff] at outside
    unfold Box.BeyondRows Box.BeyondColumns at inside outside
    simp only [Box.outcode, decide_eq_true_eq]
    split_ifs with above below right
    · exact .finishToRow _ held (by unfold Parts; omega)
    · exact .finishToRow _ held (by unfold Parts; omega)
    · exact .finishToColumn _ held (by unfold Box.BeyondRows; omega)
        (by unfold Parts; omega)
    · exact .finishToColumn _ held (by unfold Box.BeyondRows; omega)
        (by unfold Parts; omega)
  · simp only [inside, if_false, Bool.false_eq_true]
    rw [Box.isInside_outcode_iff] at inside
    unfold Box.BeyondRows Box.BeyondColumns at inside
    simp only [Box.outcode, decide_eq_true_eq]
    split_ifs with above below right
    · exact .startToRow _ (by unfold Parts; omega)
    · exact .startToRow _ (by unfold Parts; omega)
    · exact .startToColumn _ (by unfold Box.BeyondRows; omega)
        (by unfold Parts; omega)
    · exact .startToColumn _ (by unfold Box.BeyondRows; omega)
        (by unfold Parts; omega)

namespace Move

variable {crossing : Crossing} {next : Segment}

theorem reaches (move : Move box segment crossing next) : crossing.Reaches := by
  cases move with
  | startToRow row parts | finishToRow row _ parts =>
      unfold Parts at parts
      simp only [Crossing.Reaches, rowCrossing]
      omega
  | startToColumn column _ parts | finishToColumn column _ _ parts =>
      unfold Parts at parts
      simp only [Crossing.Reaches, columnCrossing]
      omega

/-- A range from an end of the segment to the other holds every place where
an edge is met. -/
theorem place_mem (move : Move box segment crossing next) :
    crossing.place ∈
      Set.uIcc crossing.origin (crossing.origin + crossing.extent) :=
  move.reaches.place_mem

theorem between (move : Move box segment crossing next) :
    next.start.x ∈ Set.uIcc segment.start.x segment.finish.x ∧
      next.start.y ∈ Set.uIcc segment.start.y segment.finish.y ∧
      next.finish.x ∈ Set.uIcc segment.start.x segment.finish.x ∧
      next.finish.y ∈ Set.uIcc segment.start.y segment.finish.y := by
  have place := move.place_mem
  cases move with
  | startToRow row parts | finishToRow row _ parts =>
      unfold Parts at parts
      rw [atRow_eq]
      simp only [rowCrossing, Set.mem_uIcc] at place ⊢
      omega
  | startToColumn column _ parts | finishToColumn column _ _ parts =>
      unfold Parts at parts
      rw [atColumn_eq]
      simp only [columnCrossing, Set.mem_uIcc] at place ⊢
      omega

/-- After a move both ends lie beyond one edge, or an end lies outside in fewer
directions. -/
theorem lowers (filled : box.isEmpty = false)
    (move : Move box segment crossing next) :
    next.isOutside box = true ∨
      box.exposure next.start + box.exposure next.finish <
        box.exposure segment.start + box.exposure segment.finish := by
  rw [Box.isEmpty_eq_false_iff] at filled
  have between := move.between
  by_cases outside : next.isOutside box = true
  · exact .inl outside
  refine .inr ?_
  rw [isOutside_iff] at outside
  simp only [Set.mem_uIcc] at between
  -- The other end keeps its exposure.  A column that the new end lies beyond,
  -- without the old one, would have the other end beyond it as well.
  cases move with
  | startToRow row parts =>
      unfold Parts at parts
      simp only [atRow_eq] at between outside ⊢
      apply Nat.add_lt_add_right
      apply Box.exposure_lt_of_rows <;>
        simp only [Box.BeyondRows, Box.BeyondColumns] <;> omega
  | startToColumn column level parts =>
      unfold Parts at parts
      unfold Box.BeyondRows at level
      simp only [atColumn_eq] at between outside ⊢
      apply Nat.add_lt_add_right
      apply Box.exposure_lt_of_columns <;>
        simp only [Box.BeyondRows, Box.BeyondColumns] <;> omega
  | finishToRow row inside parts =>
      unfold Parts at parts
      simp only [Box.contains_iff_isInside, Box.isInside_outcode_iff,
        Box.BeyondRows, Box.BeyondColumns] at inside
      simp only [atRow_eq] at between outside ⊢
      apply Nat.add_lt_add_left
      apply Box.exposure_lt_of_rows <;>
        simp only [Box.BeyondRows, Box.BeyondColumns] <;> omega
  | finishToColumn column inside level parts =>
      unfold Parts at parts
      unfold Box.BeyondRows at level
      simp only [Box.contains_iff_isInside, Box.isInside_outcode_iff,
        Box.BeyondRows, Box.BeyondColumns] at inside
      simp only [atColumn_eq] at between outside ⊢
      apply Nat.add_lt_add_left
      apply Box.exposure_lt_of_columns <;>
        simp only [Box.BeyondRows, Box.BeyondColumns] <;> omega

end Move

def moved (segment : Segment) (box : Box) (count : Nat) : Segment :=
  (fun current : Segment => current.clipEnd box)^[count] segment

theorem moved_succ (segment : Segment) (box : Box) (count : Nat) :
    segment.moved box (count + 1) = (segment.moved box count).clipEnd box :=
  Function.iterate_succ_apply' _ count segment

theorem clipWithin_eq_remains (settled : segment.isSettled box = true)
    (steps : Nat) : clipWithin box steps segment = segment.remains box := by
  rw [remains]
  by_cases inside : segment.isInside box = true
  · rw [if_pos inside]
    cases steps <;> exact if_pos inside
  · have outside : segment.isOutside box = true := by
      rw [isSettled, Bool.or_eq_true] at settled
      exact settled.resolve_left inside
    rw [if_neg inside]
    cases steps <;> exact (if_neg inside).trans (if_pos outside)

theorem clipWithin_succ (unsettled : segment.isSettled box = false)
    (steps : Nat) :
    clipWithin box (steps + 1) segment =
      clipWithin box steps (segment.clipEnd box) := by
  obtain ⟨partly, apart⟩ := Bool.or_eq_false_iff.mp unsettled
  exact (if_neg (Bool.eq_false_iff.mp partly)).trans
    (if_neg (Bool.eq_false_iff.mp apart))

theorem isInside_of_exposure_eq_zero
    (bare : box.exposure segment.start + box.exposure segment.finish = 0) :
    segment.isInside box = true := by
  obtain ⟨first, second⟩ := Nat.add_eq_zero_iff.mp bare
  rw [isInside, Bool.and_eq_true]
  exact ⟨Box.isInside_of_exposure_eq_zero first,
    Box.isInside_of_exposure_eq_zero second⟩

/-- A segment settles within so many moves, and clipping yields what remains
of it then. -/
def Settles (segment : Segment) (box : Box) (steps : Nat) : Prop :=
  ∃ count ≤ steps,
    (∀ earlier < count, (segment.moved box earlier).isSettled box = false) ∧
      (segment.moved box count).isSettled box = true ∧
      clipWithin box steps segment = (segment.moved box count).remains box

theorem settles_of_settled (settled : segment.isSettled box = true)
    (steps : Nat) : segment.Settles box steps :=
  ⟨0, Nat.zero_le _, fun _ before => absurd before (Nat.not_lt_zero _),
    settled, clipWithin_eq_remains settled steps⟩

theorem settles_succ {steps : Nat}
    (unsettled : segment.isSettled box = false)
    (settles : (segment.clipEnd box).Settles box steps) :
    segment.Settles box (steps + 1) := by
  obtain ⟨count, bound, before, settled, remains⟩ := settles
  refine ⟨count + 1, Nat.succ_le_succ bound, fun earlier below => ?_, settled,
    (clipWithin_succ unsettled steps).trans remains⟩
  cases earlier with
  | zero => exact unsettled
  | succ earlier => exact before earlier (Nat.lt_of_succ_lt_succ below)

/-- The directions in which ends lie outside bound the number of moves. -/
theorem settles_of_exposure_le (filled : box.isEmpty = false) {steps : Nat}
    (bound :
      box.exposure segment.start + box.exposure segment.finish ≤ steps) :
    segment.Settles box steps := by
  induction steps generalizing segment with
  | zero =>
      have inside := isInside_of_exposure_eq_zero (Nat.le_zero.mp bound)
      exact settles_of_settled (by rw [isSettled, inside, Bool.true_or]) 0
  | succ steps ih =>
      cases settled : segment.isSettled box with
      | true => exact settles_of_settled settled _
      | false =>
          refine settles_succ settled ?_
          rcases (move_clipEnd filled settled).lowers filled with
            outside | lower
          · exact settles_of_settled
              (by rw [isSettled, outside, Bool.or_true]) _
          · exact ih (by omega)

theorem settles (filled : box.isEmpty = false) (segment : Segment) :
    segment.Settles box 4 :=
  settles_of_exposure_le filled
    (Nat.add_le_add (box.exposure_le _) (box.exposure_le _))

theorem moved_induction {motive : Segment → Prop} (first : motive segment)
    (step : ∀ current, motive current → current.isSettled box = false →
      motive (current.clipEnd box))
    (count : Nat)
    (unsettled : ∀ earlier < count,
      (segment.moved box earlier).isSettled box = false) :
    motive (segment.moved box count) := by
  induction count with
  | zero => exact first
  | succ count ih =>
      rw [moved_succ]
      exact step _ (ih fun earlier below => unsettled earlier (by omega))
        (unsettled count (Nat.lt_succ_self count))

theorem clip?_eq (filled : box.isEmpty = false) (segment : Segment) :
    segment.clip? box = clipWithin box 4 segment := by
  rw [clip?, filled]
  rfl

theorem clip?_induction (filled : box.isEmpty = false)
    {motive : Segment → Prop} (first : motive segment)
    (step : ∀ current, motive current → current.isSettled box = false →
      motive (current.clipEnd box)) :
    ∃ last, motive last ∧ last.isSettled box = true ∧
      segment.clip? box = last.remains box := by
  obtain ⟨count, _, unsettled, settled, remains⟩ := settles filled segment
  exact ⟨_, moved_induction first step count unsettled, settled,
    (clip?_eq filled segment).trans remains⟩

def Fits (segment : Segment) : Prop :=
  segment.start.Fits ∧ segment.finish.Fits

theorem Move.fits {crossing : Crossing} {next : Segment}
    (move : Move box segment crossing next) (plane : segment.Fits) :
    crossing.Fits ∧ next.Fits := by
  obtain ⟨⟨startX, startY⟩, finishX, finishY⟩ := plane
  obtain ⟨nextStartX, nextStartY, nextFinishX, nextFinishY⟩ := move.between
  refine ⟨?_, ⟨startX.mem_uIcc finishX nextStartX,
    startY.mem_uIcc finishY nextStartY⟩, startX.mem_uIcc finishX nextFinishX,
    startY.mem_uIcc finishY nextFinishY⟩
  have reaches := move.reaches
  unfold FitsSigned at *
  cases move with
  | startToRow row _ | finishToRow row _ _ =>
      refine reaches.fits ?_ ?_ ?_ <;> simp only [rowCrossing, FitsSigned] <;>
        omega
  | startToColumn column _ _ | finishToColumn column _ _ _ =>
      refine reaches.fits ?_ ?_ ?_ <;> simp only [columnCrossing, FitsSigned] <;>
        omega

theorem isInside_of_remains {part : Segment}
    (kept : segment.remains box = some part) :
    segment = part ∧ segment.isInside box = true := by
  unfold remains at kept
  split at kept
  · rename_i inside
    exact ⟨Option.some.inj kept, inside⟩
  · cases kept

/-- Clipping a segment of the 32-bit plane ends after at most four moves.  Each
is worked out without a division by zero, in numbers that fit their widths, and
leaves both ends in the plane.  What is left lies in the box, and a segment that
lies there already is left as it is. -/
theorem clipped_in_four_moves (box : Box) (filled : box.isEmpty = false)
    (segment : Segment) (plane : segment.Fits) :
    ∃ count ≤ 4,
      (∀ earlier < count,
        (segment.moved box earlier).isSettled box = false ∧
          Move box (segment.moved box earlier)
            ((segment.moved box earlier).crossing box)
            (segment.moved box (earlier + 1)) ∧
          ((segment.moved box earlier).crossing box).Fits ∧
          (segment.moved box (earlier + 1)).Fits) ∧
      (segment.moved box count).isSettled box = true ∧
      segment.clip? box = (segment.moved box count).remains box ∧
      (∀ part, segment.clip? box = some part →
        box.contains part.start = true ∧ box.contains part.finish = true) ∧
      (box.contains segment.start = true →
        box.contains segment.finish = true →
          segment.clip? box = some segment) := by
  obtain ⟨count, bound, unsettled, settled, remains⟩ := settles filled segment
  rw [← clip?_eq filled] at remains
  have within : ∀ earlier ≤ count, (segment.moved box earlier).Fits :=
    fun earlier upto => moved_induction plane
      (fun _ fits moves => ((move_clipEnd filled moves).fits fits).2) earlier
      fun before below => unsettled before (by omega)
  refine ⟨count, bound, fun earlier below => ?_, settled, remains,
    fun part clipped => ?_, fun start finish => ?_⟩
  · have move := move_clipEnd filled (unsettled earlier below)
    rw [← moved_succ] at move
    exact ⟨unsettled earlier below, move, move.fits (within earlier (by omega))⟩
  · rw [remains] at clipped
    obtain ⟨rfl, inside⟩ := isInside_of_remains clipped
    exact isInside_iff.mp inside
  · have inside := isInside_iff.mpr ⟨start, finish⟩
    have settled : segment.isSettled box = true := by
      rw [isSettled, inside, Bool.true_or]
    rw [clip?_eq filled, clipWithin_eq_remains settled]
    exact if_pos inside

/-- A segment across the whole plane, both of whose ends move twice. -/
theorem clipped_in_four_moves_across_the_plane :
    let box : Box := ⟨0, 0, 64, 48⟩
    let segment : Segment :=
      ⟨⟨-2147483648, -343597361⟩, ⟨2147483647, 343597405⟩⟩
    box.isEmpty = false ∧ segment.Fits ∧
      (segment.moved box 3).isSettled box = false ∧
      segment.clip? box = some ⟨⟨0, 22⟩, ⟨63, 32⟩⟩ ∧
      ∃ count ≤ 4,
        (∀ earlier < count,
          ((segment.moved box earlier).crossing box).Fits) ∧
        segment.clip? box = (segment.moved box count).remains box := by
  intro box segment
  have plane : segment.Fits := by
    simp [segment, Fits, Point.Fits, FitsSigned]
  obtain ⟨count, bound, moves, _, remains, _⟩ :=
    clipped_in_four_moves box rfl segment plane
  exact ⟨rfl, plane, by decide, by decide, count, bound,
    fun earlier below => (moves earlier below).2.2.1, remains⟩

end Segment

end Nucleus
