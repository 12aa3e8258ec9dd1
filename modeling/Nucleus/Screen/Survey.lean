import Nucleus.Screen.Framebuffer
import Nucleus.Text.Numeral

namespace Nucleus

namespace Survey

/-- The words that differ: how many, and the columns and rows they span. -/
structure Difference where
  count : Nat
  left : Nat
  top : Nat
  right : Nat
  bottom : Nat
  deriving DecidableEq, Repr

def Difference.add (difference : Difference) (column row : Nat) :
    Difference :=
  if difference.count = 0 then ⟨1, column, row, column, row⟩
  else
    { count := difference.count + 1
      left := min difference.left column
      top := min difference.top row
      right := max difference.right column
      bottom := max difference.bottom row }

/-- Words in a row of memory; a raster without pitch has one column. -/
def rowLength (raster : Raster) : Nat :=
  max raster.pitch 1

def differenceFrom (before after : Array UInt32) (rowLength : Nat)
    (index : Nat) (found : Difference) : Nat → Difference
  | 0 => found
  | count + 1 =>
      let found :=
        if before[index]? == after[index]? then found
        else found.add (index % rowLength) (index / rowLength)
      differenceFrom before after rowLength (index + 1) found count

def difference (before after : Raster) : Difference :=
  differenceFrom before.words after.words (rowLength after) 0 ⟨0, 0, 0, 0, 0⟩
    after.words.size

def Difference.corners? (difference : Difference) : Option (List Nat) :=
  if difference.count = 0 then none
  else
    some [difference.left, difference.top, difference.right,
      difference.bottom]

/-- FNV-1a over the bytes of every word, lowest byte first. -/
def fingerprint (words : Array UInt32) : UInt64 :=
  let mix (hash : UInt64) (byte : UInt32) : UInt64 :=
    (hash ^^^ byte.toUInt64) * 0x100000001b3
  words.foldl (fun hash word =>
    mix (mix (mix (mix hash (word &&& 0xff)) ((word >>> 8) &&& 0xff))
      ((word >>> 16) &&& 0xff)) (word >>> 24)) 0xcbf29ce484222325

/-- What differs between two states of a screen, and the fingerprint of the
second; without a screen nothing does. -/
def compare (before after : Option Raster) : Difference × UInt64 :=
  match before, after with
  | some before, some after =>
      (difference before after, fingerprint after.words)
  | _, _ => (⟨0, 0, 0, 0, 0⟩, fingerprint #[])

def runs : List UInt32 → List (Nat × UInt32)
  | [] => []
  | word :: rest =>
      match runs rest with
      | (count, next) :: others =>
          if next = word then (count + 1, word) :: others
          else (1, word) :: (count, next) :: others
      | [] => [(1, word)]

def rowText (words : List UInt32) : String :=
  String.intercalate " " ((runs words).map fun (count, word) =>
    String.join [Numeral.decimal count, "x",
      String.ofList (Numeral.digits 16 word.toNat)])

def rows (raster : Raster) : List String :=
  let length := rowLength raster
  let count := (raster.words.size + (length - 1)) / length
  (List.range count).map fun row =>
    rowText (raster.words.extract (row * length) ((row + 1) * length)).toList

end Survey

end Nucleus
