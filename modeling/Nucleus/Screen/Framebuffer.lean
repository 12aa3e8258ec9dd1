import Nucleus.Screen.Geometry

/-!
Pixels in memory.  A raster shows one word of its memory for each point of its
box, row by row; rows may be followed by padding words, which nothing draws on.
-/

namespace Nucleus

inductive PixelOrder
  /-- Red in the lowest byte. -/
  | redFirst
  /-- Blue in the lowest byte. -/
  | blueFirst
  deriving DecidableEq, Repr

namespace PixelOrder

/-- The pixel word of a colour given as `00RRGGBB`. -/
def encode (order : PixelOrder) (colour : UInt32) : UInt32 :=
  let red := (colour >>> 16) &&& 0xff
  let green := (colour >>> 8) &&& 0xff
  let blue := colour &&& 0xff
  match order with
  | redFirst => red ||| (green <<< 8) ||| (blue <<< 16)
  | blueFirst => blue ||| (green <<< 8) ||| (red <<< 16)

end PixelOrder

structure FramebufferGeometry where
  base : Nat
  width : Nat
  height : Nat
  /-- Bytes from one row to the next. -/
  stride : Nat
  order : PixelOrder
  deriving DecidableEq, Repr

namespace FramebufferGeometry

def isValid (geometry : FramebufferGeometry) : Bool :=
  geometry.base != 0 && geometry.width != 0 && geometry.height != 0 &&
    geometry.width * 4 ≤ geometry.stride && geometry.stride % 4 == 0

/-- The bytes of a row do not fit the 32 bits in which they are counted, and
the stride is compared with them. -/
def overflows (geometry : FramebufferGeometry) : Bool :=
  geometry.base != 0 && geometry.width != 0 && geometry.height != 0 &&
    decide (UInt32.size ≤ geometry.width * 4)

end FramebufferGeometry

structure Raster where
  box : Box
  stride : Nat
  order : PixelOrder
  words : Array UInt32
  deriving DecidableEq, Repr

namespace Raster

/-- Whole words from one row to the next. -/
def pitch (raster : Raster) : Nat :=
  raster.stride / 4

def zeroed (box : Box) (stride : Nat) (order : PixelOrder)
    (size : Nat) : Raster :=
  ⟨box, stride, order, Array.replicate size 0⟩

/-- The framebuffer of a geometry over zeroed memory of at least one word. -/
def ofGeometry (geometry : FramebufferGeometry) : Raster :=
  zeroed ⟨0, 0, geometry.width, geometry.height⟩ geometry.stride
    geometry.order (max 1 (geometry.stride / 4 * geometry.height))

/-- A raster without padding whose words are the colours themselves. -/
def ofBox (box : Box) : Raster :=
  zeroed box (box.width * 4) .blueFirst (max 1 (box.width * box.height))

/-- What firmware would tell about a raster that is used as a framebuffer. -/
def geometryAt (raster : Raster) (base : Nat) : FramebufferGeometry :=
  ⟨base, raster.box.width, raster.box.height, raster.stride, raster.order⟩

/-- The first word of a row.  A stride of whole words makes the division
exact. -/
def rowStart (raster : Raster) (row : Nat) : Nat :=
  row * raster.stride / 4

def indexOf (raster : Raster) (point : Point) : Nat :=
  raster.rowStart (point.y - raster.box.top).toNat +
    (point.x - raster.box.left).toNat

def wordAt? (raster : Raster) (point : Point) : Option UInt32 :=
  if raster.box.contains point then raster.words[raster.indexOf point]?
  else none

/-- Sets the pixel of a point; points outside the box are ignored. -/
def setPixel (raster : Raster) (point : Point) (colour : UInt32) : Raster :=
  if raster.box.contains point then
    { raster with
      words := raster.words.setIfInBounds (raster.indexOf point)
        (raster.order.encode colour) }
  else
    raster

def setPixels (raster : Raster) (pixels : List (Point × UInt32)) : Raster :=
  pixels.foldl (fun raster pixel => raster.setPixel pixel.1 pixel.2) raster

def fillSpan (words : Array UInt32) (index : Nat) (word : UInt32) :
    Nat → Array UInt32
  | 0 => words
  | count + 1 =>
      fillSpan (words.setIfInBounds index word) (index + 1) word count

/-- Sets `width` words from `column` on in each of `count` rows from `row`
on. -/
def fillRows (words : Array UInt32) (stride row column width : Nat)
    (word : UInt32) : Nat → Array UInt32
  | 0 => words
  | count + 1 =>
      fillRows (fillSpan words (row * stride / 4 + column) word width) stride
        (row + 1) column width word count

def fill (raster : Raster) (area : Box) (colour : UInt32) : Raster :=
  let box := raster.box
  match Box.overlap? box.left box.right area.left area.width,
    Box.overlap? box.top box.bottom area.top area.height with
  | some (left, width), some (top, height) =>
      { raster with
        words := fillRows raster.words raster.stride (top - box.top).toNat
          (left - box.left).toNat width (raster.order.encode colour) height }
  | _, _ => raster

def clear (raster : Raster) (colour : UInt32) : Raster :=
  { raster with
    words := fillRows raster.words raster.stride 0 0 raster.box.width
      (raster.order.encode colour) raster.box.height }

end Raster

end Nucleus
