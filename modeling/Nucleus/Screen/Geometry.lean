/-!
Points and boxes of the plane.  Coordinates grow to the right and downwards.
-/

namespace Nucleus

structure Point where
  x : Int
  y : Int
  deriving DecidableEq, Repr

def Point.origin : Point := ⟨0, 0⟩

/-- A box covers the columns from `left` on and the rows from `top` on. -/
structure Box where
  left : Int
  top : Int
  width : Nat
  height : Nat
  deriving DecidableEq, Repr

namespace Box

def right (box : Box) : Int :=
  box.left + box.width

def bottom (box : Box) : Int :=
  box.top + box.height

def isEmpty (box : Box) : Bool :=
  box.width == 0 || box.height == 0

def contains (box : Box) (point : Point) : Bool :=
  box.left ≤ point.x && point.x < box.right &&
    box.top ≤ point.y && point.y < box.bottom

/-- The part of an area that lies in the box; nothing when they miss. -/
def clip? (box area : Box) : Option Box :=
  let left := max area.left box.left
  let top := max area.top box.top
  let right := min area.right box.right
  let bottom := min area.bottom box.bottom
  if left < right ∧ top < bottom then
    some ⟨left, top, (right - left).toNat, (bottom - top).toNat⟩
  else
    none

/-- Where the part of a stretch of columns or rows begins that lies from `low` on
and before `high`, and how long it is; nothing when none of it does. -/
def overlap? (low high start : Int) (length : Nat) : Option (Int × Nat) :=
  let first := max start low
  let stop := min (start + length) high
  if first < stop then some (first, (stop - first).toNat) else none

def points (box : Box) : List Point :=
  (List.range box.height).flatMap fun (row : Nat) =>
    (List.range box.width).map fun (column : Nat) =>
      ⟨box.left + column, box.top + row⟩

theorem contains_iff (box : Box) (point : Point) :
    box.contains point = true ↔
      box.left ≤ point.x ∧ point.x < box.right ∧
        box.top ≤ point.y ∧ point.y < box.bottom := by
  simp [contains, and_assoc]

theorem contains_of_clip? {box area part : Box} (clipped : box.clip? area = some part)
    (point : Point) :
    part.contains point = true ↔
      box.contains point = true ∧ area.contains point = true := by
  unfold clip? at clipped
  simp only at clipped
  split at clipped
  · cases clipped
    simp only [contains_iff, right, bottom] at *
    omega
  · cases clipped

theorem not_contains_of_clip?_eq_none {box area : Box}
    (missed : box.clip? area = none) (point : Point) :
    ¬ (box.contains point = true ∧ area.contains point = true) := by
  unfold clip? at missed
  simp only at missed
  split at missed
  · cases missed
  · simp only [contains_iff, right, bottom] at *
    omega

theorem clip?_eq_overlap? (box area : Box) :
    box.clip? area =
      match overlap? box.left box.right area.left area.width,
        overlap? box.top box.bottom area.top area.height with
      | some (left, width), some (top, height) =>
          some ⟨left, top, width, height⟩
      | _, _ => none := by
  unfold clip? overlap?
  dsimp only
  by_cases columns :
      max area.left box.left < min (area.left + area.width) box.right
  · by_cases rows :
        max area.top box.top < min (area.top + area.height) box.bottom
    · rw [if_pos columns, if_pos rows]
      exact if_pos ⟨columns, rows⟩
    · rw [if_pos columns, if_neg rows]
      exact if_neg fun both => rows both.2
  · rw [if_neg columns]
    exact if_neg fun both => columns both.1

theorem clip?_of_clip? {box area part : Box}
    (clipped : box.clip? area = some part) : box.clip? part = some part := by
  unfold clip? at clipped
  dsimp only at clipped
  split at clipped
  · rename_i visible
    cases clipped
    rw [clip?, if_pos (by simp only [right, bottom] at *; omega)]
    simp only [right, bottom, Option.some.injEq, mk.injEq] at *
    omega
  · cases clipped

end Box

end Nucleus
