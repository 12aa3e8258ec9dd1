import Nucleus.Proofs.Text.Cutting

/-!
Messages that are cut.  As long as all pieces fit, a message is what was
written.  From the first cut on it is the longest beginning of that text which
fits, and then whatever later pieces bring for the bytes that the cut character
has left free.  Hence the message is a beginning of the text exactly if none of
the later pieces starts with a character that fits there.
-/

namespace Nucleus

namespace Utf8

theorem fitting_eq_nil_iff {room : Nat} {text : List Char} :
    fitting room text = [] ↔ ∀ char ∈ text.head?, room < char.utf8Size := by
  cases text with
  | nil => simp [fitting]
  | cons char text =>
      rw [fitting]
      split
      · rename_i fits
        simp only [reduceCtorEq, List.head?_cons, Option.mem_some_iff,
          forall_eq', false_iff, Nat.not_lt]
        exact fits
      · rename_i wide
        simpa using wide

/-- The bytes that cutting a text to the room leaves free. -/
def freed (room : Nat) (text : List Char) : Nat :=
  room - size (fitting room text)

end Utf8

open Utf8

namespace Message

variable {capacity : Nat}

def whole (pieces : List String) : List Char :=
  pieces.flatMap String.toList

/-- What is kept of the pieces, each cut to the room that is left for it. -/
def kept (room : Nat) : List String → List Char
  | [] => []
  | piece :: rest =>
      fitting room piece.toList ++ kept (freed room piece.toList) rest

def behindCut (room : Nat) : List String → List String
  | [] => []
  | piece :: rest =>
      if size piece.toList ≤ room then
        behindCut (room - size piece.toList) rest
      else rest

@[simp] theorem whole_nil : whole [] = [] := rfl

@[simp] theorem whole_cons (piece : String) (rest : List String) :
    whole (piece :: rest) = piece.toList ++ whole rest := by
  rw [whole, List.flatMap_cons, ← whole]

theorem bytes_writeAll_of_encode {message : Message capacity}
    {text : List Char} (encoded : message.bytes = encode text)
    (pieces : List String) :
    (message.writeAll pieces).bytes =
      encode (text ++ kept (capacity - message.length) pieces) := by
  induction pieces generalizing message text with
  | nil => rw [writeAll_nil, kept, List.append_nil, encoded]
  | cons piece rest ih =>
      have grown := bytes_write_of_encode encoded piece
      have left : capacity - (message.write piece).length =
          freed (capacity - message.length) piece.toList := by
        rw [Message.length, grown, encode_append, List.length_append,
          ← encoded, ← Message.length, ← size, freed, Nat.sub_add_eq]
      rw [writeAll_cons, ih grown, left, kept, List.append_assoc]

theorem bytes_ofPieces (pieces : List String) :
    (ofPieces pieces : Message capacity).bytes =
      encode (kept capacity pieces) := by
  have fresh : (empty : Message capacity).bytes = encode [] := rfl
  have encoded := bytes_writeAll_of_encode fresh pieces
  rwa [length_empty, Nat.sub_zero, List.nil_append] at encoded

theorem kept_eq_self {room : Nat} {pieces : List String}
    (fits : size (whole pieces) ≤ room) : kept room pieces = whole pieces := by
  induction pieces generalizing room with
  | nil => rfl
  | cons piece rest ih =>
      rw [whole_cons, size_append] at fits
      have first : fitting room piece.toList = piece.toList :=
        fitting_eq_self (by omega)
      rw [kept, freed, first, ih (by omega), whole_cons]

/-- Pieces that fit are shown as they are. -/
theorem text_ofPieces {pieces : List String}
    (fits : size (whole pieces) ≤ capacity) :
    (ofPieces pieces : Message capacity).text = String.join pieces := by
  have encoded : (ofPieces pieces : Message capacity).bytes =
      encode (whole pieces) := by
    rw [bytes_ofPieces, kept_eq_self fits]
  rw [text_of_encode encoded, whole, ← String.toList_join, String.ofList_toList]

/-- What is kept falls into the beginning of the text that fits, and what the
pieces behind the cut bring. -/
theorem kept_eq (room : Nat) (pieces : List String) :
    kept room pieces = fitting room (whole pieces) ++
      kept (freed room (whole pieces)) (behindCut room pieces) := by
  induction pieces generalizing room with
  | nil => rfl
  | cons piece rest ih =>
      rw [kept, behindCut, whole_cons, freed, freed]
      by_cases fits : size piece.toList ≤ room
      · rw [if_pos fits, fitting_eq_self fits, fitting_append_of_fits fits,
          size_append, Nat.sub_add_eq, List.append_assoc, ih, freed]
      · rw [if_neg fits, fitting_append_of_cut (Nat.not_le.mp fits)]

theorem size_kept_le (room : Nat) (pieces : List String) :
    size (kept room pieces) ≤ room := by
  induction pieces generalizing room with
  | nil => exact Nat.zero_le room
  | cons piece rest ih =>
      have first := size_fitting_le room piece.toList
      have later := ih (freed room piece.toList)
      rw [freed] at later
      rw [kept, freed, size_append]
      omega

/-- Pieces bring nothing if the first character of each is too wide. -/
theorem kept_eq_nil_iff {room : Nat} {pieces : List String} :
    kept room pieces = [] ↔
      ∀ piece ∈ pieces, ∀ char ∈ piece.toList.head?,
        room < char.utf8Size := by
  induction pieces with
  | nil => simp [kept]
  | cons piece rest ih =>
      rw [kept, List.append_eq_nil_iff, List.forall_mem_cons,
        ← fitting_eq_nil_iff, ← ih]
      refine and_congr_right fun nothing => ?_
      rw [freed, nothing, size_nil, Nat.sub_zero]

/-- How a message stands to the pieces written to it. -/
structure Truncates (message : Message capacity) (pieces : List String) :
    Prop where
  /-- The beginning of the text that fits comes first.  Behind it is what the
  later pieces bring to a message no larger than the bytes left free. -/
  bytes : message.bytes = encode (fitting capacity (whole pieces)) ++
    (ofPieces (behindCut capacity pieces) :
      Message (freed capacity (whole pieces))).bytes
  complete : size (whole pieces) ≤ capacity →
    message.bytes = encode (whole pieces)
  /-- No more than three bytes come after a cut. -/
  length_lt : message.length < size (fitting capacity (whole pieces)) + 4
  prefix_iff : message.bytes <+: encode (whole pieces) ↔
    ∀ piece ∈ behindCut capacity pieces, ∀ char ∈ piece.toList.head?,
      freed capacity (whole pieces) < char.utf8Size

theorem kept_prefix_iff {room : Nat} {pieces : List String} :
    kept room pieces <+: whole pieces ↔
      kept (freed room (whole pieces)) (behindCut room pieces) = [] := by
  constructor
  · intro begins
    -- A beginning that fits is no longer than the one the cut has left.
    have short := (prefix_fitting_iff.mpr
      ⟨begins, size_kept_le room pieces⟩).length_le
    rw [kept_eq, List.length_append] at short
    exact List.eq_nil_of_length_eq_zero (by omega)
  · intro nothing
    rw [kept_eq, nothing, List.append_nil]
    exact fitting_prefix room (whole pieces)

theorem size_kept_lt (room : Nat) (pieces : List String) :
    size (kept room pieces) < size (fitting room (whole pieces)) + 4 := by
  by_cases fits : size (whole pieces) ≤ room
  · rw [kept_eq_self fits, fitting_eq_self fits]
    omega
  · have narrow := room_lt_of_cut (Nat.not_le.mp fits)
    have bound := size_kept_le room pieces
    omega

/-- A cut message is a beginning of its text unless a later piece finds room
for its first character. -/
theorem truncates_ofPieces (capacity : Nat) (pieces : List String) :
    (ofPieces pieces : Message capacity).Truncates pieces := by
  constructor
  · rw [bytes_ofPieces, bytes_ofPieces, kept_eq, encode_append]
  · intro fits
    rw [bytes_ofPieces, kept_eq_self fits]
  · rw [Message.length, bytes_ofPieces, ← size]
    exact size_kept_lt capacity pieces
  · rw [bytes_ofPieces, encode_prefix_iff, kept_prefix_iff, kept_eq_nil_iff]

/-- Of `abcé` only three bytes fit a message of four, and the `x` written next
takes the place of what was cut off. -/
theorem cut_message_refilled :
    (ofPieces ["abc\u00e9", "x"] : Message 4).bytes =
        encode ['a', 'b', 'c', 'x'] ∧
      ¬ (ofPieces ["abc\u00e9", "x"] : Message 4).bytes <+:
        encode (whole ["abc\u00e9", "x"]) := by
  decide

end Message

end Nucleus
