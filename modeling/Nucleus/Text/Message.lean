import Nucleus.Text.Utf8

/-!
A message of bounded size, built piece by piece.  A piece that does not fit is
cut at a character boundary; every piece is cut on its own, so a short piece
may still land in the bytes that a cut character left free.
-/

namespace Nucleus

structure Message (capacity : Nat) where
  bytes : List UInt8
  deriving DecidableEq, Repr

namespace Message

variable {capacity : Nat}

def empty : Message capacity := ⟨[]⟩

def length (message : Message capacity) : Nat :=
  message.bytes.length

def isEmpty (message : Message capacity) : Bool :=
  message.bytes.isEmpty

def write (message : Message capacity) (piece : String) : Message capacity :=
  ⟨message.bytes ++
    Utf8.cut (Utf8.encode piece.toList) (capacity - message.length)⟩

def writeAll (message : Message capacity) (pieces : List String) :
    Message capacity :=
  pieces.foldl write message

def ofPieces (pieces : List String) : Message capacity :=
  empty.writeAll pieces

def text (message : Message capacity) : String :=
  match Utf8.decode? message.bytes with
  | some chars => String.ofList chars
  | none => "<invalid>"

@[simp] theorem length_empty : (empty : Message capacity).length = 0 := rfl

@[simp] theorem bytes_write (message : Message capacity) (piece : String) :
    (message.write piece).bytes = message.bytes ++
      Utf8.cut (Utf8.encode piece.toList) (capacity - message.length) := rfl

@[simp] theorem writeAll_nil (message : Message capacity) :
    message.writeAll [] = message := rfl

@[simp] theorem writeAll_cons (message : Message capacity) (piece : String)
    (pieces : List String) :
    message.writeAll (piece :: pieces) =
      (message.write piece).writeAll pieces := rfl

end Message

end Nucleus
