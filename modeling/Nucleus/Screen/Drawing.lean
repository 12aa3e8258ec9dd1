import Nucleus.Screen.Framebuffer
import Nucleus.Screen.Segment
import Nucleus.Screen.Typesetting

/-!
Drawing.  Colours are given as `00RRGGBB`; whatever lies outside the screen is
clipped, and without a screen drawing does nothing.
-/

namespace Nucleus

inductive Drawing
  | clear (colour : UInt32)
  | pixel (point : Point) (colour : UInt32)
  | line (segment : Segment) (colour : UInt32)
  | rectangle (area : Box) (colour : UInt32)
  | text (corner : Point) (bytes : List UInt8) (scale : Nat) (colour : UInt32)
  deriving DecidableEq, Repr

namespace TextScale

def largest : Nat := 16

def clamp (scale : Nat) : Nat :=
  min (max scale 1) largest

def cell (scale : Nat) : Nat × Nat :=
  (Font.cellWidth * clamp scale, Font.cellHeight * clamp scale)

end TextScale

namespace Raster

def drawLine (raster : Raster) (segment : Segment) (colour : UInt32) :
    Raster :=
  match segment.clip? raster.box with
  | none => raster
  | some part => raster.setPixels (part.points.map fun point => (point, colour))

def fillVisible (raster : Raster) (area : Box) (colour : UInt32) : Raster :=
  match raster.box.clip? area with
  | none => raster
  | some part => raster.fill part colour

/-- The square that magnifies a point of text set from `corner`. -/
def magnified (corner : Point) (scale : Nat) (point : Point) : Box :=
  ⟨corner.x + point.x * scale, corner.y + point.y * scale, scale, scale⟩

/-- Text that would start right of or below the screen is not drawn. -/
def drawText (raster : Raster) (corner : Point) (bytes : List UInt8)
    (scale : Nat) (colour : UInt32) : Raster :=
  if raster.box.isEmpty ∨ raster.box.lastColumn < corner.x ∨
      raster.box.lastRow < corner.y then
    raster
  else
    (Typesetting.litPoints bytes).foldl (fun raster point =>
      raster.fillVisible (magnified corner (TextScale.clamp scale) point)
        colour) raster

def draw (raster : Raster) : Drawing → Raster
  | .clear colour => raster.clear colour
  | .pixel point colour => raster.setPixel point colour
  | .line segment colour => raster.drawLine segment colour
  | .rectangle area colour => raster.fillVisible area colour
  | .text corner bytes scale colour => raster.drawText corner bytes scale colour

end Raster

/-- A raster to draw on, if there is one. -/
abbrev Screen := Option Raster

namespace Screen

/-- Width and height; zero without a screen. -/
def size : Screen → Nat × Nat
  | some raster => (raster.box.width, raster.box.height)
  | none => (0, 0)

/-- Characters are as large without a screen as on one. -/
def charSize (_ : Screen) (scale : Nat) : Nat × Nat :=
  TextScale.cell scale

def draw (screen : Screen) (drawing : Drawing) : Screen :=
  Option.map (fun raster : Raster => raster.draw drawing) screen

end Screen

end Nucleus
