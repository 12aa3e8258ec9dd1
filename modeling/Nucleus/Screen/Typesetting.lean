import Nucleus.Screen.Font
import Nucleus.Screen.Geometry
import Nucleus.Text.Utf8

/-!
Typesetting at the size of the font: which pixels text lights when it is set
from a point on.  A newline returns to the column where its stretch of text
began; a carriage return at the end of a line is dropped.
-/

namespace Nucleus

namespace Typesetting

/-- A character and the upper left corner of its cell. -/
structure Glyph where
  char : Char
  corner : Point
  deriving DecidableEq, Repr

def lines : List Char → List (List Char)
  | [] => [[]]
  | char :: rest =>
      match lines rest with
      | [] => [[char]]
      | line :: others =>
          if char = '\n' then [] :: line :: others
          else (char :: line) :: others

def trimLine (line : List Char) : List Char :=
  match line.reverse with
  | '\r' :: rest => rest.reverse
  | _ => line

def setLine : Point → List Char → List Glyph
  | _, [] => []
  | corner, char :: rest =>
      ⟨char, corner⟩ :: setLine ⟨corner.x + Font.cellWidth, corner.y⟩ rest

/-- Sets lines below each other.  The point is where the last line ended. -/
def setLines (corner : Point) : List (List Char) → List Glyph × Point
  | [] => ([], corner)
  | [line] =>
      (setLine corner line,
        ⟨corner.x + Font.cellWidth * line.length, corner.y⟩)
  | line :: others =>
      let (glyphs, finish) :=
        setLines ⟨corner.x, corner.y + Font.cellHeight⟩ others
      (setLine corner line ++ glyphs, finish)

def setText (corner : Point) (text : List Char) : List Glyph × Point :=
  setLines corner ((lines text).map trimLine)

/-- Sets stretches of text one after the other, each from where the last one
ended, with a question mark for every broken part. -/
def setChunks (corner : Point) : List Utf8.Chunk → List Glyph
  | [] => []
  | chunk :: rest =>
      let (glyphs, corner) :=
        if chunk.text.isEmpty then ([], corner)
        else setText corner chunk.text
      let (mark, corner) :=
        if chunk.broken then setText corner ['?'] else ([], corner)
      glyphs ++ mark ++ setChunks corner rest

def setBytes (bytes : List UInt8) : List Glyph :=
  setChunks Point.origin (Utf8.chunks bytes)

def cellPlaces : List (Nat × Nat) :=
  (List.range Font.cellHeight).flatMap fun row =>
    (List.range Font.cellWidth).map fun column => (column, row)

def Glyph.points (glyph : Glyph) : List Point :=
  cellPlaces.filterMap fun (column, row) =>
    if Font.isLit glyph.char column row then
      some ⟨glyph.corner.x + column, glyph.corner.y + row⟩
    else none

def litPoints (bytes : List UInt8) : List Point :=
  (setBytes bytes).flatMap Glyph.points

end Typesetting

end Nucleus
