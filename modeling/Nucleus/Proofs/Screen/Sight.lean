import Mathlib.Data.Real.Basic
import Nucleus.Proofs.Screen.Course

/-!
What clipping leaves of a segment, and what it tells about its sight.  What is
left runs along the course of the segment, up to roundings that no later move
magnifies.  Roundings can mistake the sight of a segment, but only of one that
passes the box within a column of an edge; where none happens, a segment is
rejected exactly when no point of it lies in the box.
-/

namespace Nucleus

variable {K : Type} [Field K] [LinearOrder K] [IsStrictOrderedRing K]

/-- All points of the closed box, with coordinates in the field. -/
def Box.area (K : Type) [Field K] [LinearOrder K] (box : Box) : Set (K × K) :=
  Set.Icc (box.left, box.top) (box.lastColumn, box.lastRow)

omit [IsStrictOrderedRing K] in
theorem Box.mem_area_iff {box : Box} {place : K × K} :
    place ∈ box.area K ↔
      (box.left ≤ place.1 ∧ place.1 ≤ box.lastColumn) ∧
        box.top ≤ place.2 ∧ place.2 ≤ box.lastRow := by
  rw [area, Set.mem_Icc, Prod.le_def, Prod.le_def]
  tauto

theorem Box.pair_mem_area_iff {box : Box} {point : Point} :
    point.pair K ∈ box.area K ↔ box.contains point = true := by
  rw [mem_area_iff, contains_iff, lastColumn, lastRow, Point.pair]
  dsimp only
  rw [Int.cast_le, Int.cast_le, Int.cast_le, Int.cast_le]
  omega

namespace Segment

variable {box : Box} {path : Segment} {point : Point} {share other : K}

/-- Every edge that the segment crosses from its start on is met at whole
coordinates, so that no move rounds. -/
def MeetsWhole (path : Segment) (box : Box) : Prop :=
  (∀ row, Parts box.top box.lastRow path.start.y path.finish.y row →
    path.finish.y - path.start.y ∣
      (path.finish.x - path.start.x) * (row - path.start.y)) ∧
  ∀ column, Parts box.left box.lastColumn path.start.x path.finish.x column →
    path.finish.x - path.start.x ∣
      (path.finish.y - path.start.y) * (column - path.start.x)

/-- The segment starts beyond a corner of the box, and the place is less than
one column away from the edge there. -/
def Skims (path : Segment) (box : Box) (place : K × K) : Prop :=
  box.BeyondRows path.start ∧
    (path.start.x < box.left ∧ place.1 < box.left + 1 ∨
      box.lastColumn < path.start.x ∧ box.lastColumn - 1 < place.1)

/-- The start has come to a point, and stands for the point after a share of
the path.  What it has passed is out of the box, or skims it. -/
structure Skips (box : Box) (path : Segment) (point : Point) (share : K) :
    Prop where
  exact : path.MeetsWhole box → path.along share = point.pair K
  askew : box.BeyondColumns point →
    path.along share = point.pair K ∨ box.BeyondRows path.start
  seen : ∀ other : K, 0 ≤ other → other ≤ 1 → path.along other ∈ box.area K →
    share ≤ other ∨
      ¬ path.MeetsWhole box ∧ path.Skims box (path.along other)

omit [IsStrictOrderedRing K] in
theorem skips_start (box : Box) (path : Segment) :
    Skips box path path.start (0 : K) :=
  ⟨fun _ => along_zero path, fun _ => .inl (along_zero path),
    fun _ nonneg _ _ => .inl nonneg⟩

theorem Parts.share_le {low high first last bound : Int}
    (parts : Parts low high first last bound)
    (meets : first + share * (last - first) = (bound : K))
    (above : (low : K) ≤ first + other * (last - first))
    (below : first + other * (last - first) ≤ (high : K)) : share ≤ other := by
  rcases parts with ⟨outer, inner, rfl⟩ | ⟨outer, inner, rfl⟩
  · have ahead : (0 : K) < last - first := by
      rw [sub_pos]
      exact_mod_cast outer.trans_le inner
    exact le_of_mul_le_mul_right (by linarith) ahead
  · have behind : (0 : K) < first - last := by
      rw [sub_pos]
      exact_mod_cast inner.trans_lt outer
    exact le_of_mul_le_mul_right (by linarith) behind

theorem eq_of_near {first second : Int}
    (near : |(first : K) - second| < 1) : first = second := by
  have close : |first - second| < 1 := by exact_mod_cast near
  rw [Int.abs_lt_one_iff] at close
  omega

theorem meets_exactly {place first last start finish bound : Int}
    (nonzero : last - first ≠ 0)
    (divides : last - first ∣ (finish - start) * (bound - first))
    (meets : first + share * (last - first) = (bound : K))
    (near : |(place : K) - (start + share * (finish - start))| < 1) :
    start + share * (finish - start) = (place : K) := by
  obtain ⟨quotient, divides⟩ := divides
  have cast : ((finish : K) - start) * (bound - first) =
      (last - first) * quotient := by
    exact_mod_cast divides
  have nonzero : (last : K) - first ≠ 0 := by exact_mod_cast nonzero
  have whole : start + share * (finish - start) =
      ((start + quotient : Int) : K) := by
    rw [Int.cast_add, add_right_inj]
    refine mul_left_cancel₀ nonzero ?_
    rw [← cast, ← meets]
    ring
  rw [whole] at near ⊢
  rw [eq_of_near near]

theorem Parts.ne {low high first last bound : Int}
    (parts : Parts low high first last bound) : last - first ≠ 0 := by
  unfold Parts at parts
  omega

theorem skips_row {row : Int}
    (parts : Parts box.top box.lastRow path.start.y path.finish.y row)
    (trails : Trails box path (path.atRow row) share)
    (height : (path.along share).2 = row) :
    Skips box path (path.atRow row) share where
  exact := fun whole =>
    Prod.ext (meets_exactly parts.ne (whole.1 row parts) height trails.near_x)
      height
  askew := fun _ => .inr (by
    unfold Parts at parts
    unfold Box.BeyondRows
    omega)
  seen := fun other _ _ visible => by
    obtain ⟨_, above, below⟩ := Box.mem_area_iff.mp visible
    exact .inl (parts.share_le height above below)

/-- Before a rounded meeting with an edge all is less than one behind it. -/
theorem Parts.short_of_edge {low high first last bound : Int}
    (parts : Parts low high first last bound) {next : K}
    (near : |(bound : K) - (first + next * (last - first))| < 1)
    (before : other ≤ next) :
    first < low ∧ first + other * (last - first) < (low : K) + 1 ∨
      high < first ∧ (high : K) - 1 < first + other * (last - first) := by
  obtain ⟨lower, upper⟩ := abs_lt.mp near
  rcases parts with ⟨outer, inner, rfl⟩ | ⟨outer, inner, rfl⟩
  · have ahead : (0 : K) ≤ last - first := by
      rw [sub_nonneg]
      exact_mod_cast (outer.trans_le inner).le
    have short := mul_le_mul_of_nonneg_right before ahead
    exact .inl ⟨outer, by linarith⟩
  · have behind : (last : K) - first ≤ 0 := by
      rw [sub_nonpos]
      exact_mod_cast (inner.trans_lt outer).le
    have short := mul_le_mul_of_nonpos_right before behind
    exact .inr ⟨outer, by linarith⟩

theorem Skips.column (skips : Skips box path point share)
    (trails : Trails box path point share) {column : Int} {next : K}
    (parts : Parts box.left box.lastColumn point.x path.finish.x column)
    (filled : box.isEmpty = false)
    (moved : Trails box path ((⟨point, path.finish⟩ : Segment).atColumn column)
      next)
    (width : (path.along share).1 = point.x → (path.along next).1 = column) :
    Skips box path ((⟨point, path.finish⟩ : Segment).atColumn column) next := by
  have outer : box.BeyondColumns point := by
    unfold Parts at parts
    unfold Box.BeyondColumns
    omega
  have first : Parts box.left box.lastColumn path.start.x path.finish.x
      column := by
    have between := trails.between_x
    rw [Set.mem_uIcc] at between
    unfold Parts at parts ⊢
    omega
  refine ⟨fun whole => ?_, fun beyond => absurd beyond ?_,
    fun other nonneg le_one visible => ?_⟩
  · have meets := width (congrArg Prod.fst (skips.exact whole))
    exact Prod.ext meets
      (meets_exactly first.ne (whole.2 column first) meets moved.near_y)
  · rw [Box.isEmpty_eq_false_iff] at filled
    unfold Parts at parts
    simp only [Box.BeyondColumns, atColumn_eq]
    omega
  · rcases skips.seen other nonneg le_one visible with after | skims
    · obtain ⟨⟨above, below⟩, _⟩ := Box.mem_area_iff.mp visible
      by_cases straight : path.along share = point.pair K
      · have meets := width (congrArg Prod.fst straight)
        exact .inl (first.share_le meets above below)
      · rcases le_total next other with reached | before
        · exact .inl reached
        · exact .inr ⟨fun whole => straight (skips.exact whole),
            (skips.askew outer).resolve_left straight,
            first.short_of_edge moved.near_x before⟩
    · exact .inr skims

variable {current : Segment}

/-- Where the ends have come to on a run.  The finish waits for the start. -/
structure Follows (K : Type) [Field K] [LinearOrder K]
    [IsStrictOrderedRing K] (box : Box) (path current : Segment) : Prop where
  start : ∃ share : K, Trails box path current.start share ∧
    Skips box path current.start share
  finish : ∃ share : K, Closes box path current.finish share
  waits : box.contains current.start = true ∨ current.finish = path.finish

theorem follows_self (K : Type) [Field K] [LinearOrder K]
    [IsStrictOrderedRing K] (box : Box) (path : Segment) :
    Follows K box path path :=
  ⟨⟨0, trails_start box path, skips_start box path⟩,
    ⟨1, closes_finish box path⟩, .inr rfl⟩

theorem Follows.finish_eq (follows : Follows K box path current)
    (outer : box.BeyondRows current.start ∨ box.BeyondColumns current.start) :
    current.finish = path.finish := by
  refine follows.waits.resolve_left fun inside => ?_
  rw [Box.contains_iff_isInside, Box.isInside_outcode_iff] at inside
  exact outer.elim inside.1 inside.2

omit [IsStrictOrderedRing K] in
theorem Trails.start_eq (trails : Trails box path current.start share)
    (same : current.finish = path.finish)
    (unsettled : current.isSettled box = false)
    (outer : box.BeyondRows current.start) : current = path := by
  have apart := (Bool.or_eq_false_iff.mp unsettled).2
  have first := (trails.unmoved outer).resolve_left fun outside => by
    rw [← same] at outside
    exact Bool.eq_false_iff.mp apart outside
  rw [Segment.mk.injEq]
  exact ⟨first.1, same⟩

theorem Follows.clipEnd (follows : Follows K box path current)
    (filled : box.isEmpty = false)
    (unsettled : current.isSettled box = false) :
    Follows K box path (current.clipEnd box) := by
  have still := follows.finish_eq
  obtain ⟨⟨first, trails, skips⟩, ⟨last, closes⟩, _⟩ := follows
  have move := move_clipEnd filled unsettled
  generalize current.clipEnd box = next, current.crossing box = crossing
    at move
  cases move with
  | startToRow row parts =>
      have outer : box.BeyondRows current.start := by
        unfold Parts at parts
        unfold Box.BeyondRows
        omega
      have same := still (.inl outer)
      obtain rfl := trails.start_eq same unsettled outer
      obtain ⟨next, trails, height⟩ : ∃ next : K, _ := trails_row filled parts
      exact ⟨⟨next, trails, skips_row parts trails height⟩, ⟨last, closes⟩,
        .inr rfl⟩
  | startToColumn column level parts =>
      have outer : box.BeyondColumns current.start := by
        unfold Parts at parts
        unfold Box.BeyondColumns
        omega
      have same := still (.inr outer)
      rw [same] at parts
      obtain ⟨next, moved, width⟩ := trails.column filled level parts
      have skips := skips.column trails parts filled moved width
      unfold atColumn at moved skips ⊢
      rw [same]
      exact ⟨⟨next, moved, skips⟩, ⟨last, same ▸ closes⟩, .inr rfl⟩
  | finishToRow row inside parts =>
      exact ⟨⟨first, trails, skips⟩, closes.row trails filled inside parts,
        .inl inside⟩
  | finishToColumn column inside level parts =>
      exact ⟨⟨first, trails, skips⟩,
        closes.column trails filled inside level parts, .inl inside⟩

theorem filled_of_clip? {part : Segment}
    (clipped : path.clip? box = some part) : box.isEmpty = false := by
  unfold clip? at clipped
  split at clipped
  · cases clipped
  · rename_i filled
    exact Bool.eq_false_iff.mpr filled

theorem follows_of_clip? (K : Type) [Field K] [LinearOrder K]
    [IsStrictOrderedRing K] {part : Segment}
    (clipped : path.clip? box = some part) :
    Follows K box path part ∧ part.isInside box = true := by
  have filled := filled_of_clip? clipped
  obtain ⟨last, follows, _, remains⟩ := clip?_induction filled
    (follows_self K box path) fun _ follows moves =>
      follows.clipEnd filled moves
  rw [remains] at clipped
  obtain ⟨rfl, inside⟩ := isInside_of_remains clipped
  exact ⟨follows, inside⟩

/-- A clipped segment keeps its course: in either direction its start is less
than one, and its finish less than two, away from a point of the segment. -/
theorem course_kept (path : Segment) (box : Box) (part : Segment)
    (clipped : path.clip? box = some part) :
    (∃ place ∈ path.course ℚ,
      |(part.start.x : ℚ) - place.1| < 1 ∧
        |(part.start.y : ℚ) - place.2| < 1) ∧
      ∃ place ∈ path.course ℚ,
        |(part.finish.x : ℚ) - place.1| < 2 ∧
          |(part.finish.y : ℚ) - place.2| < 2 := by
  obtain ⟨⟨⟨first, trails, _⟩, ⟨last, closes⟩, _⟩, _⟩ :=
    follows_of_clip? ℚ clipped
  exact ⟨⟨_, mem_course_iff.mpr ⟨first, trails.nonneg, trails.le_one, rfl⟩,
      trails.near_x, trails.near_y⟩,
    _, mem_course_iff.mpr ⟨last, closes.nonneg, closes.le_one, rfl⟩,
      closes.near_x, closes.near_y⟩

/-- A flat segment, whose finish is moved by more than one row. -/
theorem course_kept_flat :
    let path : Segment := ⟨⟨32, 6⟩, ⟨-39, 0⟩⟩
    let part : Segment := ⟨⟨9, 5⟩, ⟨0, 5⟩⟩
    path.clip? ⟨0, 0, 10, 9⟩ = some part ∧
      (∃ place ∈ path.course ℚ,
        |(part.start.x : ℚ) - place.1| < 1 ∧
          |(part.start.y : ℚ) - place.2| < 1) ∧
      ∃ place ∈ path.course ℚ,
        |(part.finish.x : ℚ) - place.1| < 2 ∧
          |(part.finish.y : ℚ) - place.2| < 2 :=
  ⟨by decide, course_kept _ ⟨0, 0, 10, 9⟩ _ (by decide)⟩

theorem along_mem_uIcc {low high first last : K} (after : low ≤ high)
    (le_one : high ≤ 1) :
    first + high * (last - first) ∈
      Set.uIcc (first + low * (last - first)) last := by
  have onward := sub_nonneg.mpr after
  have rest := sub_nonneg.mpr le_one
  rw [Set.mem_uIcc]
  rcases le_total first last with right | left
  · have lead := mul_nonneg onward (sub_nonneg.mpr right)
    have way := mul_nonneg rest (sub_nonneg.mpr right)
    exact .inl ⟨by linarith, by linarith⟩
  · have lead := mul_nonneg onward (sub_nonneg.mpr left)
    have way := mul_nonneg rest (sub_nonneg.mpr left)
    exact .inr ⟨by linarith, by linarith⟩

theorem beyond_of_between {low high first last : Int} {place : K}
    (between : place ∈ Set.uIcc (first : K) last)
    (beyond : first < low ∧ last < low ∨ high < first ∧ high < last) :
    place < low ∨ (high : K) < place := by
  rw [Set.uIcc, Set.mem_Icc] at between
  rcases beyond with ⟨start, finish⟩ | ⟨start, finish⟩
  · exact .inl (between.2.trans_lt
      (max_lt (by exact_mod_cast start) (by exact_mod_cast finish)))
  · exact .inr ((lt_min (by exact_mod_cast start)
      (by exact_mod_cast finish)).trans_le between.1)

/-- Once start and finish lie beyond one edge, nothing is left to see. -/
theorem Trails.unseen (trails : Trails box path point share)
    (outside : (⟨point, path.finish⟩ : Segment).isOutside box = true)
    (after : share ≤ other) (le_one : other ≤ 1) :
    path.along other ∉ box.area K := by
  have x := Set.uIcc_subset_uIcc_right trails.ahead_x
    (along_mem_uIcc after le_one)
  have y := Set.uIcc_subset_uIcc_right trails.ahead_y
    (along_mem_uIcc after le_one)
  rw [isOutside_iff, ← or_assoc] at outside
  rw [Box.mem_area_iff]
  rintro ⟨⟨left, right⟩, top, bottom⟩
  rcases outside with columns | rows
  · exact (beyond_of_between x columns).elim left.not_gt right.not_gt
  · exact (beyond_of_between y rows).elim top.not_gt bottom.not_gt

theorem exists_outside_of_clip? (K : Type) [Field K] [LinearOrder K]
    [IsStrictOrderedRing K] (filled : box.isEmpty = false)
    (rejected : path.clip? box = none) :
    ∃ last, Follows K box path last ∧ last.isOutside box = true := by
  obtain ⟨last, follows, settled, remains⟩ := clip?_induction filled
    (follows_self K box path) fun _ follows moves =>
      follows.clipEnd filled moves
  rw [rejected, Segment.remains] at remains
  rw [isSettled, Bool.or_eq_true] at settled
  refine ⟨last, follows, settled.resolve_left fun inside => ?_⟩
  rw [if_pos inside] at remains
  cases remains

theorem not_visible_of_isEmpty (empty : box.isEmpty = true) (place : K × K) :
    place ∉ box.area K := by
  rw [Box.mem_area_iff]
  rintro ⟨⟨left, right⟩, top, bottom⟩
  have columns : box.left ≤ box.lastColumn := by
    exact_mod_cast left.trans right
  have rows : box.top ≤ box.lastRow := by exact_mod_cast top.trans bottom
  rw [Box.isEmpty_eq_false_iff.mpr ⟨columns, rows⟩] at empty
  cases empty

/-- A rejected segment is out of sight, but for what skims the box after a
rounded move. -/
theorem skims_of_clip?_eq_none (rejected : path.clip? box = none)
    {place : K × K} (passes : place ∈ path.course K)
    (visible : place ∈ box.area K) :
    ¬ path.MeetsWhole box ∧ path.Skims box place := by
  cases filled : box.isEmpty with
  | true => exact absurd visible (not_visible_of_isEmpty filled place)
  | false =>
      obtain ⟨other, nonneg, le_one, rfl⟩ := mem_course_iff.mp passes
      obtain ⟨last, follows, outside⟩ :=
        exists_outside_of_clip? K filled rejected
      obtain ⟨⟨share, trails, skips⟩, _, _⟩ := id follows
      rcases skips.seen other nonneg le_one visible with after | skims
      · have same : last.finish = path.finish := by
          refine follows.finish_eq ?_
          rw [isOutside_iff] at outside
          unfold Box.BeyondRows Box.BeyondColumns
          tauto
        exact absurd visible (trails.unseen (same ▸ outside) after le_one)
      · exact skims

theorem bounds_of_near {value low high : Int} {exact : K}
    (near : |(value : K) - exact| < 1) (above : low ≤ value)
    (below : value ≤ high) : (low : K) - 1 < exact ∧ exact < high + 1 := by
  have lower : (low : K) ≤ value := by exact_mod_cast above
  have upper : (value : K) ≤ high := by exact_mod_cast below
  rw [abs_lt] at near
  constructor <;> linarith

/-- What clipping tells about the sight of a segment.  A rejected one is not
visible but in the leftmost or rightmost column, which it reaches from beyond a
corner of the box.  One that is not rejected comes nearer than one column and
one row to the box.  And where no meeting with an edge has to be rounded,
exactly the invisible segments are rejected. -/
theorem sight_of_clip? (path : Segment) (box : Box) :
    (path.clip? box = none →
        ∀ place ∈ path.course ℝ, place ∈ box.area ℝ →
          path.Skims box place) ∧
      (∀ part, path.clip? box = some part →
        ∃ place ∈ path.course ℝ,
          ((box.left : ℝ) - 1 < place.1 ∧ place.1 < box.lastColumn + 1) ∧
            (box.top : ℝ) - 1 < place.2 ∧ place.2 < box.lastRow + 1) ∧
      (path.MeetsWhole box →
        (path.clip? box = none ↔
          ∀ place ∈ path.course ℝ, place ∉ box.area ℝ)) := by
  have held : ∀ {part}, path.clip? box = some part →
      ∃ share : ℝ, Trails box path part.start share ∧
        Skips box path part.start share ∧
        box.contains part.start = true := fun clipped => by
    obtain ⟨⟨⟨share, trails, skips⟩, _⟩, inside⟩ := follows_of_clip? ℝ clipped
    exact ⟨share, trails, skips, (isInside_iff.mp inside).1⟩
  refine ⟨fun rejected place passes visible =>
    (skims_of_clip?_eq_none rejected passes visible).2,
    fun part clipped => ?_, fun whole => ⟨fun rejected => ?_, fun apart => ?_⟩⟩
  · obtain ⟨share, trails, _, inside⟩ := held clipped
    rw [Box.contains_iff_isInside, Box.isInside_outcode_iff] at inside
    unfold Box.BeyondRows Box.BeyondColumns at inside
    exact ⟨_, mem_course_iff.mpr ⟨share, trails.nonneg, trails.le_one, rfl⟩,
      bounds_of_near trails.near_x (by omega) (by omega),
      bounds_of_near trails.near_y (by omega) (by omega)⟩
  · exact fun place passes visible =>
      (skims_of_clip?_eq_none rejected passes visible).1 whole
  · cases clipped : path.clip? box with
    | none => rfl
    | some part =>
        obtain ⟨share, trails, skips, inside⟩ := held clipped
        have passes : part.start.pair ℝ ∈ path.course ℝ := mem_course_iff.mpr
          ⟨share, trails.nonneg, trails.le_one, skips.exact whole⟩
        exact absurd (Box.pair_mem_area_iff.mpr inside) (apart _ passes)

/-- A diagonal that meets the left edge from beyond a corner. -/
theorem sight_of_clip?_diagonal :
    let box : Box := ⟨0, 0, 64, 48⟩
    let path : Segment := ⟨⟨-30, -20⟩, ⟨70, 80⟩⟩
    path.MeetsWhole box ∧
      path.clip? box = some ⟨⟨0, 10⟩, ⟨37, 47⟩⟩ ∧
        ∃ place ∈ path.course ℝ, place ∈ box.area ℝ := by
  intro box path
  have whole : path.MeetsWhole box :=
    ⟨fun row _ => ⟨row + 20, rfl⟩, fun column _ => ⟨column + 30, rfl⟩⟩
  have clipped : path.clip? box = some ⟨⟨0, 10⟩, ⟨37, 47⟩⟩ := by decide
  refine ⟨whole, clipped, ?_⟩
  by_contra apart
  push Not at apart
  have rejected := ((sight_of_clip? path box).2.2 whole).mpr apart
  rw [clipped] at rejected
  cases rejected

/-- Of two segments that cross a screen from top to bottom one is rejected,
though it runs through the leftmost column, and one is drawn down that column,
though it runs left of it. -/
theorem sight_mistaken :
    let box : Box := ⟨0, 0, 64, 64⟩
    let seen : Segment := ⟨⟨-1, -199⟩, ⟨1, 201⟩⟩
    let unseen : Segment := ⟨⟨0, -199⟩, ⟨-2, 201⟩⟩
    (seen.clip? box = none ∧
        ∃ place ∈ seen.course ℝ, place ∈ box.area ℝ) ∧
      unseen.clip? box = some ⟨⟨0, 0⟩, ⟨0, 63⟩⟩ ∧
        ∀ place ∈ unseen.course ℝ, place ∉ box.area ℝ := by
  intro box seen unseen
  refine ⟨⟨by decide, (0, 1), ?_, ?_⟩, by decide,
    fun place passes visible => ?_⟩
  · exact mem_course_iff.mpr ⟨1 / 2, by norm_num, by norm_num, by
      ext <;> norm_num [along, seen]⟩
  · rw [Box.mem_area_iff]
    norm_num [box, Box.lastColumn, Box.lastRow, Box.right, Box.bottom]
  · obtain ⟨share, nonneg, _, rfl⟩ := mem_course_iff.mp passes
    rw [Box.mem_area_iff] at visible
    norm_num [along, box, unseen] at visible
    linarith [visible.1.1, visible.2.1]

end Segment

end Nucleus
