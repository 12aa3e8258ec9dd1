import Mathlib.Analysis.Convex.Basic
import Mathlib.Tactic.Ring
import Nucleus.Proofs.Screen.Clipping

/-!
The course of a segment: all points between its ends, with coordinates in an
ordered field.  A move rounds the point where the course of the present segment
meets an edge, by less than one.  The start takes part in at most one move to a
row and one to a column, so it stays less than one away from the first course;
the finish moves along a course that is off by that much, and so stays less
than two away.
-/

namespace Nucleus

variable {K : Type} [Field K] [LinearOrder K] [IsStrictOrderedRing K]

namespace Crossing

variable {crossing : Crossing}

theorem rounded_down {extent gap depth : Int} (ahead : 0 < depth)
    (dividend : 0 ≤ extent * gap) {share : K} (meets : share * depth = gap) :
    (((extent * gap).tdiv depth : Int) : K) ≤ share * extent ∧
      share * extent < ((extent * gap).tdiv depth : Int) + 1 := by
  have positive : (0 : K) < depth := by exact_mod_cast ahead
  have split : (depth : K) * ((extent * gap).tdiv depth : Int) +
      ((extent * gap).tmod depth : Int) = extent * gap := by
    exact_mod_cast Int.mul_tdiv_add_tmod (extent * gap) depth
  have rest : (0 : K) ≤ ((extent * gap).tmod depth : Int) := by
    exact_mod_cast Int.tmod_nonneg depth dividend
  have below : (((extent * gap).tmod depth : Int) : K) < depth := by
    exact_mod_cast Int.tmod_lt_of_pos (extent * gap) ahead
  rw [← meets] at split
  constructor
  · refine le_of_mul_le_mul_left ?_ positive
    linarith
  · refine lt_of_mul_lt_mul_left ?_ positive.le
    linarith

/-- The rounded quotient is less than one away from the exact one, which lies
between it and the whole extent. -/
theorem tdiv_near {extent gap depth : Int} (ahead : 0 < depth)
    (nonneg : 0 ≤ gap) {share : K} (le_one : share ≤ 1)
    (meets : share * depth = gap) :
    |(((extent * gap).tdiv depth : Int) : K) - share * extent| < 1 ∧
      share * extent ∈
        Set.uIcc (((extent * gap).tdiv depth : Int) : K) (extent : K) := by
  rw [Set.mem_uIcc, abs_lt]
  rcases le_total 0 extent with right | left
  · have rounded := rounded_down ahead (mul_nonneg right nonneg) meets
    have whole : share * extent ≤ extent :=
      mul_le_of_le_one_left (by exact_mod_cast right) le_one
    exact ⟨⟨by linarith, by linarith⟩, .inl ⟨rounded.1, whole⟩⟩
  · have turned : 0 ≤ -extent * gap :=
      mul_nonneg (Int.neg_nonneg.mpr left) nonneg
    have rounded := rounded_down ahead turned meets
    have whole : (extent : K) ≤ share * extent :=
      le_mul_of_le_one_left (by exact_mod_cast left) le_one
    rw [neg_mul, Int.neg_tdiv, Int.cast_neg, Int.cast_neg, mul_neg] at rounded
    exact ⟨⟨by linarith, by linarith⟩, .inr ⟨whole, by linarith⟩⟩

theorem Reaches.exists_share (K : Type) [Field K] [LinearOrder K]
    [IsStrictOrderedRing K] (reaches : crossing.Reaches) :
    ∃ share : K, 0 ≤ share ∧ share ≤ 1 ∧
      share * crossing.depth = crossing.gap := by
  have nonzero : (crossing.depth : K) ≠ 0 := by
    exact_mod_cast reaches.depth_ne_zero
  refine ⟨crossing.gap / crossing.depth, ?_, ?_, div_mul_cancel₀ _ nonzero⟩
  all_goals rcases reaches with ⟨ahead, nonneg, le⟩ | ⟨behind, le, nonpos⟩
  · exact div_nonneg (by exact_mod_cast nonneg) (by exact_mod_cast ahead.le)
  · exact div_nonneg_of_nonpos (by exact_mod_cast nonpos)
      (by exact_mod_cast behind.le)
  · exact (div_le_one (by exact_mod_cast ahead)).mpr (by exact_mod_cast le)
  · exact (div_le_one_of_neg (by exact_mod_cast behind)).mpr
      (by exact_mod_cast le)

theorem Reaches.place_near (reaches : crossing.Reaches) {share : K}
    (le_one : share ≤ 1) (meets : share * crossing.depth = crossing.gap) :
    |(crossing.place : K) - (crossing.origin + share * crossing.extent)| <
        1 ∧
      crossing.origin + share * crossing.extent ∈
        Set.uIcc (crossing.place : K)
          (crossing.origin + crossing.extent) := by
  have near : |(crossing.quotient : K) - share * crossing.extent| < 1 ∧
      share * crossing.extent ∈
        Set.uIcc (crossing.quotient : K) (crossing.extent : K) := by
    unfold quotient
    rcases reaches with ⟨ahead, nonneg, _⟩ | ⟨behind, _, nonpos⟩
    · exact tdiv_near ahead nonneg le_one meets
    · have turned : crossing.extent * crossing.gap =
          -(crossing.extent * -crossing.gap) := by rw [mul_neg, neg_neg]
      rw [turned, Int.neg_tdiv, ← Int.tdiv_neg]
      refine tdiv_near (Int.neg_pos_of_neg behind)
        (Int.neg_nonneg_of_nonpos nonpos) le_one ?_
      rw [Int.cast_neg, Int.cast_neg, mul_neg, meets]
  rw [place, Int.cast_add, add_sub_add_left_eq_sub]
  refine ⟨near.1, ?_⟩
  have between := near.2
  simp only [Set.mem_uIcc, add_le_add_iff_left] at between ⊢
  exact between

end Crossing

def Point.pair (K : Type) [IntCast K] (point : Point) : K × K :=
  (point.x, point.y)

namespace Segment

variable {box : Box} {path : Segment} {point : Point} {share : K}

/-- All points between the ends, both included. -/
def course (K : Type) [Field K] [LinearOrder K] (path : Segment) :
    Set (K × K) :=
  segment K (path.start.pair K) (path.finish.pair K)

/-- The point after a share of the segment. -/
def along (path : Segment) (share : K) : K × K :=
  (path.start.x + share * (path.finish.x - path.start.x),
    path.start.y + share * (path.finish.y - path.start.y))

theorem mem_course_iff {place : K × K} :
    place ∈ path.course K ↔
      ∃ share, 0 ≤ share ∧ share ≤ 1 ∧ path.along share = place := by
  rw [course, segment_eq_image', Set.mem_image]
  simp only [Set.mem_Icc, and_assoc]
  rfl

omit [LinearOrder K] [IsStrictOrderedRing K] in
theorem along_zero (path : Segment) :
    path.along (0 : K) = path.start.pair K := by
  simp [along, Point.pair]

omit [LinearOrder K] [IsStrictOrderedRing K] in
theorem along_one (path : Segment) :
    path.along (1 : K) = path.finish.pair K := by
  simp [along, Point.pair]

/-- The start has come to a point, and stands for the point after a share of
the path: that one is less than one away in either direction, and on the way
from there to the finish. -/
structure Trails (box : Box) (path : Segment) (point : Point) (share : K) :
    Prop where
  nonneg : 0 ≤ share
  le_one : share ≤ 1
  near_x : |(point.x : K) - (path.along share).1| < 1
  near_y : |(point.y : K) - (path.along share).2| < 1
  ahead_x : (path.along share).1 ∈ Set.uIcc (point.x : K) path.finish.x
  ahead_y : (path.along share).2 ∈ Set.uIcc (point.y : K) path.finish.y
  between_x : point.x ∈ Set.uIcc path.start.x path.finish.x
  between_y : point.y ∈ Set.uIcc path.start.y path.finish.y
  /-- Only a move to a column leads out of the rows, and then the segment is
  settled. -/
  unmoved : box.BeyondRows point →
    (⟨point, path.finish⟩ : Segment).isOutside box = true ∨
      point = path.start ∧ share = 0
  /-- A move to a row rounds the column alone. -/
  level : box.BeyondColumns point → (path.along share).2 = point.y

theorem trails_start (box : Box) (path : Segment) :
    Trails box path path.start (0 : K) where
  nonneg := le_refl 0
  le_one := zero_le_one
  near_x := by simp [along]
  near_y := by simp [along]
  ahead_x := by simp [along]
  ahead_y := by simp [along]
  between_x := Set.left_mem_uIcc
  between_y := Set.left_mem_uIcc
  unmoved := fun _ => .inr ⟨rfl, rfl⟩
  level := fun _ => by simp [along]

theorem trails_row (filled : box.isEmpty = false) {row : Int}
    (parts : Parts box.top box.lastRow path.start.y path.finish.y row) :
    ∃ next : K, Trails box path (path.atRow row) next ∧
      (path.along next).2 = row := by
  have reaches := (Move.startToRow row parts).reaches
  obtain ⟨next, nonneg, le_one, meets⟩ := reaches.exists_share K
  obtain ⟨near, ahead⟩ := reaches.place_near le_one meets
  have between := (Move.startToRow row parts).between
  have height : (path.along next).2 = row := by
    simp only [rowCrossing, Int.cast_sub] at meets
    rw [along, meets]
    ring
  simp only [rowCrossing, Int.cast_sub, add_sub_cancel] at near ahead
  have level : ¬ box.BeyondRows (path.atRow row) := by
    rw [Box.isEmpty_eq_false_iff] at filled
    unfold Parts at parts
    simp only [Box.BeyondRows, atRow_eq]
    omega
  refine ⟨next, ⟨nonneg, le_one, near, ?_, ahead, ?_, between.1, between.2.1,
    fun outer => absurd outer level, fun _ => height⟩, height⟩
  · rw [height, atRow_eq, sub_self, abs_zero]
    exact zero_lt_one
  · rw [height, atRow_eq]
    exact Set.left_mem_uIcc

omit [LinearOrder K] [IsStrictOrderedRing K] in
theorem along_blend (path : Segment) (first second further : K) :
    path.along (first + further * (second - first)) =
      ((path.along first).1 +
          further * ((path.along second).1 - (path.along first).1),
        (path.along first).2 +
          further * ((path.along second).2 - (path.along first).2)) := by
  ext <;> simp only [along] <;> ring

theorem blend_unit {first second further : K} (nonneg : 0 ≤ further)
    (le_one : further ≤ 1) (unit : first ∈ Set.Icc 0 1)
    (other : second ∈ Set.Icc 0 1) :
    first + further * (second - first) ∈ Set.Icc 0 1 := by
  have inside := convex_Icc (0 : K) 1 unit other (sub_nonneg.mpr le_one) nonneg
    (sub_add_cancel 1 further)
  rw [smul_eq_mul, smul_eq_mul] at inside
  convert inside using 1
  ring

/-- Two points move by the same share towards two others.  They stay as close
as both pairs are. -/
theorem blend_near {first second third fourth further radius : K}
    (nonneg : 0 ≤ further) (le_one : further ≤ 1)
    (near : |first - second| < radius) (far : |third - fourth| < radius) :
    |first + further * (third - first) -
        (second + further * (fourth - second))| < radius := by
  have inside := convex_Ioo (-radius) radius (abs_lt.mp near) (abs_lt.mp far)
    (sub_nonneg.mpr le_one) nonneg (sub_add_cancel 1 further)
  rw [smul_eq_mul, smul_eq_mul, Set.mem_Ioo] at inside
  rw [abs_lt]
  constructor <;> linarith

/-- Two points move by the same share towards one that the second is nearer
to.  It still is. -/
theorem blend_ahead {first second finish further : K} (le_one : further ≤ 1)
    (ahead : second ∈ Set.uIcc first finish) :
    second + further * (finish - second) ∈
      Set.uIcc (first + further * (finish - first)) finish := by
  have rest : 0 ≤ 1 - further := sub_nonneg.mpr le_one
  rw [Set.mem_uIcc] at ahead ⊢
  rcases ahead with ⟨left, right⟩ | ⟨left, right⟩
  · have lead := mul_nonneg rest (sub_nonneg.mpr left)
    have way := mul_nonneg rest (sub_nonneg.mpr right)
    exact .inl ⟨by linarith, by linarith⟩
  · have way := mul_nonneg rest (sub_nonneg.mpr left)
    have lead := mul_nonneg rest (sub_nonneg.mpr right)
    exact .inr ⟨by linarith, by linarith⟩

theorem Trails.column (trails : Trails box path point share)
    (filled : box.isEmpty = false) {column : Int}
    (rows : ¬ box.BeyondRows point)
    (parts : Parts box.left box.lastColumn point.x path.finish.x column) :
    ∃ next : K,
      Trails box path ((⟨point, path.finish⟩ : Segment).atColumn column) next ∧
        ((path.along share).1 = point.x → (path.along next).1 = column) := by
  have move : Move box ⟨point, path.finish⟩ _ _ :=
    .startToColumn column rows parts
  have reaches := move.reaches
  obtain ⟨further, nonneg, le_one, meets⟩ := reaches.exists_share K
  obtain ⟨near, ahead⟩ := reaches.place_near le_one meets
  have between := move.between
  have outer : box.BeyondColumns point := by
    unfold Parts at parts
    unfold Box.BeyondColumns
    omega
  have height := trails.level outer
  simp only [columnCrossing, Int.cast_sub, add_sub_cancel] at near ahead meets
  have width : (point.x : K) + further * (path.finish.x - point.x) = column := by
    rw [meets]
    ring
  have still : |(path.finish.x : K) - path.finish.x| < 1 := by
    rw [sub_self, abs_zero]
    exact zero_lt_one
  have close := blend_near nonneg le_one trails.near_x still
  have lead := blend_ahead le_one trails.ahead_x
  rw [width] at close lead
  have unit := blend_unit nonneg le_one ⟨trails.nonneg, trails.le_one⟩
    (Set.right_mem_Icc.mpr zero_le_one)
  have level : ¬ box.BeyondColumns
      ((⟨point, path.finish⟩ : Segment).atColumn column) := by
    rw [Box.isEmpty_eq_false_iff] at filled
    unfold Parts at parts
    simp only [Box.BeyondColumns, atColumn_eq]
    omega
  have place := along_blend path share 1 further
  rw [along_one, Point.pair, height] at place
  refine ⟨share + further * (1 - share), ⟨unit.1, unit.2, ?_, ?_, ?_, ?_, ?_,
    ?_, fun beyond => ?_, fun beyond => absurd beyond level⟩,
    fun exact => ?_⟩
  · rw [place]
    exact close
  · rw [place]
    exact near
  · rw [place]
    exact lead
  · rw [place]
    exact ahead
  · have inner := trails.between_x
    have outer := between.1
    rw [Set.mem_uIcc] at inner outer ⊢
    dsimp only at outer
    omega
  · have inner := trails.between_y
    have outer := between.2.1
    rw [Set.mem_uIcc] at inner outer ⊢
    dsimp only at outer
    omega
  · have inner := between.2.1
    rw [Set.mem_uIcc] at inner
    refine .inl (isOutside_iff.mpr ?_)
    unfold Box.BeyondRows at rows beyond
    dsimp only at inner ⊢
    omega
  · rw [place, exact, width]

/-- The finish has come to a point, and stands for the point after a share of
the path.  A move to a row rounds along the course of a segment whose start is
less than one away, and a move to a column does so again. -/
structure Closes (box : Box) (path : Segment) (point : Point) (share : K) :
    Prop where
  nonneg : 0 ≤ share
  le_one : share ≤ 1
  near_x : |(point.x : K) - (path.along share).1| < 2
  near_y : |(point.y : K) - (path.along share).2| < 2
  unmoved : box.BeyondRows point → path.along share = point.pair K
  level : box.BeyondColumns point →
    |(point.y : K) - (path.along share).2| < 1

theorem closes_finish (box : Box) (path : Segment) :
    Closes box path path.finish (1 : K) := by
  have there := along_one (K := K) path
  constructor
  all_goals first | exact zero_le_one | exact le_refl 1 | simp [there, Point.pair]

variable {start : Point} {first : K}

theorem near_of_rounded {place met exact : K} (rounded : |place - met| < 1)
    (near : |met - exact| < 1) : |place - exact| < 2 :=
  (abs_sub_le place met exact).trans_lt (by linarith)

theorem Closes.row (closes : Closes box path point share)
    (trails : Trails box path start first) (filled : box.isEmpty = false)
    (inside : box.contains start = true) {row : Int}
    (parts : Parts box.top box.lastRow point.y start.y row) :
    ∃ next : K,
      Closes box path ((⟨start, point⟩ : Segment).atRow row) next := by
  have move : Move box ⟨start, point⟩ _ _ := .finishToRow row inside parts
  obtain ⟨further, nonneg, le_one, meets⟩ := move.reaches.exists_share K
  obtain ⟨rounded, _⟩ := move.reaches.place_near le_one meets
  rw [Box.isEmpty_eq_false_iff] at filled
  unfold Parts at parts
  have there := closes.unmoved (by unfold Box.BeyondRows; omega)
  have level : ¬ box.BeyondRows ((⟨start, point⟩ : Segment).atRow row) := by
    simp only [Box.BeyondRows, atRow_eq]
    omega
  have still : ∀ exact : K, |exact - exact| < 1 := fun exact => by
    rw [sub_self, abs_zero]
    exact zero_lt_one
  have close_x := blend_near nonneg le_one trails.near_x (still point.x)
  have close_y := blend_near nonneg le_one trails.near_y (still point.y)
  simp only [rowCrossing, Int.cast_sub] at rounded meets
  rw [meets, add_sub_cancel] at close_y
  have unit := blend_unit nonneg le_one ⟨trails.nonneg, trails.le_one⟩
    ⟨closes.nonneg, closes.le_one⟩
  have place := along_blend path first share further
  rw [there, Point.pair] at place
  refine ⟨_, unit.1, unit.2, ?_, ?_, fun outer => absurd outer level,
    fun _ => ?_⟩
  · rw [place]
    exact near_of_rounded rounded close_x
  · rw [place]
    exact close_y.trans one_lt_two
  · rw [place]
    exact close_y

theorem Closes.column (closes : Closes box path point share)
    (trails : Trails box path start first) (filled : box.isEmpty = false)
    (inside : box.contains start = true) (rows : ¬ box.BeyondRows point)
    {column : Int}
    (parts : Parts box.left box.lastColumn point.x start.x column) :
    ∃ next : K,
      Closes box path ((⟨start, point⟩ : Segment).atColumn column) next := by
  have move : Move box ⟨start, point⟩ _ _ :=
    .finishToColumn column inside rows parts
  have between := move.between
  obtain ⟨further, nonneg, le_one, meets⟩ := move.reaches.exists_share K
  obtain ⟨rounded, _⟩ := move.reaches.place_near le_one meets
  have held := inside
  rw [Box.contains_iff_isInside, Box.isInside_outcode_iff] at held
  rw [Box.isEmpty_eq_false_iff] at filled
  unfold Parts at parts
  have near := closes.level (by unfold Box.BeyondColumns; omega)
  have level : ¬ box.BeyondRows ((⟨start, point⟩ : Segment).atColumn column) ∧
      ¬ box.BeyondColumns ((⟨start, point⟩ : Segment).atColumn column) := by
    have y := between.2.2.2
    rw [Set.mem_uIcc] at y
    simp only [Box.BeyondRows, Box.BeyondColumns, atColumn_eq] at held rows y ⊢
    omega
  have close_x := blend_near nonneg le_one
    (trails.near_x.trans one_lt_two) closes.near_x
  have close_y := blend_near nonneg le_one trails.near_y near
  simp only [columnCrossing, Int.cast_sub] at rounded meets
  rw [meets, add_sub_cancel] at close_x
  have unit := blend_unit nonneg le_one ⟨trails.nonneg, trails.le_one⟩
    ⟨closes.nonneg, closes.le_one⟩
  have place := along_blend path first share further
  refine ⟨_, unit.1, unit.2, ?_, ?_, fun outer => absurd outer level.1,
    fun outer => absurd outer level.2⟩
  · rw [place]
    exact close_x
  · rw [place]
    exact near_of_rounded rounded close_y

end Segment

end Nucleus
