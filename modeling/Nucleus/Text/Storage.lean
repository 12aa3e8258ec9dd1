import Nucleus.Text.Message

/-!
A message as it lies in memory: an array that never grows, and how much of it
is taken.  The rest is left over from earlier text.  Every index is checked
against its array, and nothing is subtracted from less: an operation that
breaks a rule has no result.
-/

namespace Nucleus

/-- The difference of two indices, unless it is negative. -/
def difference? (index taken : Nat) : Option Nat :=
  if taken ≤ index then some (index - taken) else none

def slice? (bytes : List UInt8) (start stop : Nat) : Option (List UInt8) :=
  if start ≤ stop ∧ stop ≤ bytes.length then
    some ((bytes.take stop).drop start)
  else none

def Utf8.stepBack? (bytes : List UInt8) : Nat → Option Nat
  | 0 => if isBoundary bytes 0 then some 0 else none
  | index + 1 =>
      if isBoundary bytes (index + 1) then some (index + 1)
      else stepBack? bytes index

structure MessageStorage (capacity : Nat) where
  data : List UInt8
  length_data : data.length = capacity
  used : Nat

namespace MessageStorage

variable {capacity : Nat}

def empty : MessageStorage capacity where
  data := List.replicate capacity 0
  length_data := List.length_replicate
  used := 0

/-- Puts bytes in the place of those from one index up to another, of which
there have to be as many. -/
def overwrite? (storage : MessageStorage capacity) (start stop : Nat)
    (source : List UInt8) : Option (MessageStorage capacity) :=
  if bounded : start ≤ stop ∧ stop ≤ capacity ∧
      source.length = stop - start then
    some { storage with
      data := storage.data.take start ++ source ++ storage.data.drop stop
      length_data := by
        have length := storage.length_data
        simp only [List.length_append, List.length_take, List.length_drop]
        omega }
  else none

def write? (storage : MessageStorage capacity) (piece : String) :
    Option (MessageStorage capacity) := do
  let bytes := Utf8.encode piece.toList
  let room ← difference? capacity storage.used
  let copied ← Utf8.stepBack? bytes (min bytes.length room)
  let source ← slice? bytes 0 copied
  let stop := storage.used + copied
  let written ← storage.overwrite? storage.used stop source
  some { written with used := stop }

/-- Forgets the text; the array keeps its bytes. -/
def clear (storage : MessageStorage capacity) : MessageStorage capacity :=
  { storage with used := 0 }

def bytes? (storage : MessageStorage capacity) : Option (List UInt8) :=
  slice? storage.data 0 storage.used

def text? (storage : MessageStorage capacity) : Option String :=
  storage.bytes?.map fun bytes => (Message.mk bytes : Message capacity).text

end MessageStorage

end Nucleus
