import Nucleus.Screen.Geometry

/-!
Line segments.  A segment is clipped to a box before it is drawn: while an end
lies outside, it moves along the segment onto an edge of the box that it lies
beyond.  What is left is drawn with one point for each step along its longer
side.
-/

namespace Nucleus

/-- The edges of a box that a point lies beyond. -/
structure Outcode where
  left : Bool
  right : Bool
  top : Bool
  bottom : Bool
  deriving DecidableEq, Repr

namespace Outcode

def isInside (code : Outcode) : Bool :=
  !(code.left || code.right || code.top || code.bottom)

def shares (first second : Outcode) : Bool :=
  (first.left && second.left) || (first.right && second.right) ||
    (first.top && second.top) || (first.bottom && second.bottom)

end Outcode

namespace Box

def lastColumn (box : Box) : Int := box.right - 1

def lastRow (box : Box) : Int := box.bottom - 1

def outcode (box : Box) (point : Point) : Outcode where
  left := point.x < box.left
  right := box.lastColumn < point.x
  top := point.y < box.top
  bottom := box.lastRow < point.y

end Box

structure Segment where
  start : Point
  finish : Point
  deriving DecidableEq, Repr

namespace Segment

/-- The point of the segment's line in a row, its column rounded towards the
start. -/
def atRow (segment : Segment) (row : Int) : Point :=
  let dx := segment.finish.x - segment.start.x
  let dy := segment.finish.y - segment.start.y
  ⟨segment.start.x + (dx * (row - segment.start.y)).tdiv dy, row⟩

def atColumn (segment : Segment) (column : Int) : Point :=
  let dx := segment.finish.x - segment.start.x
  let dy := segment.finish.y - segment.start.y
  ⟨column, segment.start.y + (dy * (column - segment.start.x)).tdiv dx⟩

/-- Where the segment's line meets an edge that one of its ends lies beyond. -/
def meet (segment : Segment) (box : Box) (code : Outcode) : Point :=
  if code.top then segment.atRow box.top
  else if code.bottom then segment.atRow box.lastRow
  else if code.right then segment.atColumn box.lastColumn
  else segment.atColumn box.left

/-- Moves one end that lies outside, the start first. -/
def clipEnd (segment : Segment) (box : Box) : Segment :=
  let code := box.outcode segment.start
  if code.isInside then
    { segment with
      finish := segment.meet box (box.outcode segment.finish) }
  else
    { segment with start := segment.meet box code }

/-- Clips in at most `steps` moves. -/
def clipWithin (box : Box) : Nat → Segment → Option Segment
  | steps, segment =>
      let first := box.outcode segment.start
      let second := box.outcode segment.finish
      if first.isInside && second.isInside then some segment
      else if first.shares second then none
      else
        match steps with
        | 0 => none
        | steps + 1 => clipWithin box steps (segment.clipEnd box)

/-- The part of the segment that lies in the box.  Each end moves at most
twice. -/
def clip? (segment : Segment) (box : Box) : Option Segment :=
  if box.isEmpty then none else clipWithin box 4 segment

/-- The steps that draw a segment: one along the longer side for each point,
and one along the shorter side whenever the error has grown enough. -/
structure Stroke where
  major : Point
  minor : Point
  majorLength : Nat
  minorLength : Nat

def stroke (segment : Segment) : Stroke :=
  let dx := segment.finish.x - segment.start.x
  let dy := segment.finish.y - segment.start.y
  let stepX : Point := ⟨if 0 ≤ dx then 1 else -1, 0⟩
  let stepY : Point := ⟨0, if 0 ≤ dy then 1 else -1⟩
  if dx.natAbs ≤ dy.natAbs then
    ⟨stepY, stepX, dy.natAbs, dx.natAbs⟩
  else
    ⟨stepX, stepY, dx.natAbs, dy.natAbs⟩

def Stroke.points (stroke : Stroke) (point : Point) (error : Int) :
    Nat → List Point
  | 0 => []
  | count + 1 =>
      let late := (stroke.majorLength : Int) < error
      let point : Point :=
        if late then
          ⟨point.x + stroke.minor.x, point.y + stroke.minor.y⟩
        else point
      let error :=
        if late then error - 2 * stroke.majorLength else error
      point :: stroke.points
        ⟨point.x + stroke.major.x, point.y + stroke.major.y⟩
        (error + 2 * stroke.minorLength) count

def points (segment : Segment) : List Point :=
  let stroke := segment.stroke
  stroke.points segment.start 0 (stroke.majorLength + 1)

end Segment

end Nucleus
