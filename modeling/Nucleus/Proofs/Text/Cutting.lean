import Nucleus.Proofs.Text.Decoding
import Nucleus.Text.Message

namespace Nucleus

namespace Utf8

@[simp] theorem encode_nil : encode [] = [] := rfl

theorem encode_cons (char : Char) (text : List Char) :
    encode (char :: text) = String.utf8EncodeChar char ++ encode text := by
  rw [encode, List.flatMap_cons, ← encode]

theorem encode_append (text more : List Char) :
    encode (text ++ more) = encode text ++ encode more :=
  List.flatMap_append

def size (text : List Char) : Nat :=
  (encode text).length

@[simp] theorem size_nil : size [] = 0 := rfl

@[simp] theorem size_cons (char : Char) (text : List Char) :
    size (char :: text) = char.utf8Size + size text := by
  rw [size, encode_cons, List.length_append, String.length_utf8EncodeChar, size]

@[simp] theorem size_append (text more : List Char) :
    size (text ++ more) = size text + size more := by
  rw [size, encode_append, List.length_append, size, size]

theorem size_toList (text : String) : size text.toList = text.utf8ByteSize := by
  rw [String.utf8ByteSize, ← String.utf8Encode_toList, List.utf8Encode,
    List.size_toByteArray]
  rfl

theorem size_eq_length {text : List Char}
    (narrow : ∀ char ∈ text, char.utf8Size = 1) : size text = text.length := by
  induction text with
  | nil => rfl
  | cons char text ih =>
      obtain ⟨first, rest⟩ := List.forall_mem_cons.mp narrow
      rw [size_cons, first, ih rest, List.length_cons, Nat.add_comm]

theorem decode?_encode (text : List Char) :
    decode? (encode text) = some text := by
  rw [decode?, chunks_encode]
  cases text with
  | nil => rfl
  | cons char text => simp

theorem encode_prefix_iff {text other : List Char} :
    encode text <+: encode other ↔ text <+: other := by
  constructor
  · rintro ⟨rest, same⟩
    apply List.isPrefix_of_utf8Encode_append_eq_utf8Encode rest.toByteArray
    rw [List.utf8Encode, List.utf8Encode, ← List.toByteArray_append]
    exact congrArg List.toByteArray same
  · rintro ⟨rest, rfl⟩
    rw [encode_append]
    exact List.prefix_append _ _

theorem exists_lead (char : Char) :
    ∃ lead tail, String.utf8EncodeChar char = lead :: tail ∧
      isContinuation lead = false ∧
      ∀ byte ∈ tail, isContinuation byte = true := by
  have valid : char.toNat.isValidChar := char.valid
  unfold Nat.isValidChar at valid
  unfold String.utf8EncodeChar
  simp only [Char.toNat_val]
  split_ifs with one two three <;>
    refine ⟨_, _, rfl, ?_, ?_⟩ <;>
    simp only [← Bool.not_eq_true, isContinuation_iff, UInt8.toNat_ofNat',
      List.forall_mem_cons, List.not_mem_nil, false_implies, implies_true,
      and_true] <;>
    omega

theorem lastBoundary_of_isBoundary {bytes : List UInt8} {index : Nat}
    (boundary : isBoundary bytes index = true) :
    lastBoundary bytes index = index := by
  cases index with
  | zero => rfl
  | succ index => rw [lastBoundary, if_pos boundary]

theorem lastBoundary_of_not_isBoundary {bytes : List UInt8} {index : Nat}
    (within : isBoundary bytes (index + 1) = false) :
    lastBoundary bytes (index + 1) = lastBoundary bytes index := by
  rw [lastBoundary, within, if_neg Bool.false_ne_true]

/-- There is no boundary within a character. -/
theorem lastBoundary_within {lead : UInt8} {tail rest : List UInt8}
    (continues : ∀ byte ∈ tail, isContinuation byte = true) {index : Nat}
    (within : index ≤ tail.length) :
    lastBoundary (lead :: tail ++ rest) index = 0 := by
  induction index with
  | zero => rfl
  | succ index ih =>
      have inside : (lead :: tail ++ rest)[index + 1]? = some tail[index] := by
        rw [List.cons_append, List.getElem?_cons_succ,
          List.getElem?_append_left within, List.getElem?_eq_getElem within]
      have middle : isBoundary (lead :: tail ++ rest) (index + 1) = false := by
        rw [isBoundary, if_neg (Nat.succ_ne_zero index), inside]
        dsimp only
        rw [continues _ (List.getElem_mem within), Bool.not_true]
      rw [lastBoundary_of_not_isBoundary middle, ih (Nat.le_of_succ_le within)]

theorem isBoundary_encode_zero_append (before : List UInt8) (text : List Char) :
    isBoundary (before ++ encode text) before.length = true := by
  rw [isBoundary]
  split
  · rfl
  · rw [List.getElem?_append_right (Nat.le_refl _), Nat.sub_self]
    cases text with
    | nil => simp
    | cons char text =>
        obtain ⟨lead, tail, encoded, starts, -⟩ := exists_lead char
        rw [encode_cons, encoded]
        simp [starts]

theorem isBoundary_append (before bytes : List UInt8) (index : Nat) :
    isBoundary (before ++ bytes) (before.length + (index + 1)) =
      isBoundary bytes (index + 1) := by
  rw [isBoundary, isBoundary, if_neg (by omega), if_neg (by omega),
    List.getElem?_append_right (by omega), Nat.add_sub_cancel_left,
    List.length_append]
  simp only [Nat.add_left_cancel_iff]

theorem lastBoundary_append (before : List UInt8) (text : List Char)
    (index : Nat) :
    lastBoundary (before ++ encode text) (before.length + index) =
      before.length + lastBoundary (encode text) index := by
  induction index with
  | zero =>
      exact lastBoundary_of_isBoundary
        (isBoundary_encode_zero_append before text)
  | succ index ih =>
      have same := isBoundary_append before (encode text) index
      cases boundary : isBoundary (encode text) (index + 1) with
      | true =>
          rw [boundary] at same
          rw [lastBoundary_of_isBoundary same,
            lastBoundary_of_isBoundary boundary]
      | false =>
          rw [boundary] at same
          rw [← Nat.add_assoc] at same ⊢
          rw [lastBoundary_of_not_isBoundary same,
            lastBoundary_of_not_isBoundary boundary, ih]

/-- The characters that fit the room, up to the first that does not. -/
def fitting (room : Nat) : List Char → List Char
  | [] => []
  | char :: text =>
      if char.utf8Size ≤ room then
        char :: fitting (room - char.utf8Size) text
      else []

theorem cut_encode_cons (char : Char) (text : List Char) (room : Nat) :
    cut (encode (char :: text)) room =
      if char.utf8Size ≤ room then
        String.utf8EncodeChar char ++
          cut (encode text) (room - char.utf8Size)
      else [] := by
  have width := String.length_utf8EncodeChar char
  rw [encode_cons, cut, List.length_append, width]
  split
  · rename_i fits
    have split : min (char.utf8Size + (encode text).length) room =
        (String.utf8EncodeChar char).length +
          min (encode text).length (room - char.utf8Size) := by
      omega
    rw [split, lastBoundary_append, List.take_length_add_append, cut]
  · rename_i wide
    obtain ⟨lead, tail, encoded, -, continues⟩ := exists_lead char
    rw [encoded, List.length_cons] at width
    rw [encoded, lastBoundary_within continues (by omega), List.take_zero]

theorem cut_encode (text : List Char) (room : Nat) :
    cut (encode text) room = encode (fitting room text) := by
  induction text generalizing room with
  | nil => rfl
  | cons char text ih =>
      rw [cut_encode_cons, fitting]
      split
      · rw [ih, encode_cons]
      · rfl

theorem fitting_eq_self {text : List Char} {room : Nat}
    (fits : size text ≤ room) : fitting room text = text := by
  induction text generalizing room with
  | nil => rfl
  | cons char text ih =>
      rw [size_cons] at fits
      rw [fitting, if_pos (by omega), ih (by omega)]

/-- The beginnings of a text that fit are those of its fitting part. -/
theorem prefix_fitting_iff {text start : List Char} {room : Nat} :
    start <+: fitting room text ↔ start <+: text ∧ size start ≤ room := by
  induction text generalizing start room with
  | nil =>
      rw [fitting, List.prefix_nil]
      constructor
      · rintro rfl
        exact ⟨rfl, Nat.zero_le _⟩
      · exact And.left
  | cons char text ih =>
      cases start with
      | nil => simp
      | cons first start =>
          rw [fitting]
          split
          · rename_i fits
            rw [List.cons_prefix_cons, List.cons_prefix_cons, ih, size_cons,
              and_assoc]
            refine and_congr_right fun same => and_congr_right fun _ => ?_
            rw [same]
            omega
          · rename_i wide
            rw [List.prefix_nil, List.cons_prefix_cons, size_cons]
            constructor
            · intro absurd
              cases absurd
            · rintro ⟨⟨rfl, -⟩, bound⟩
              omega

theorem fitting_prefix (room : Nat) (text : List Char) :
    fitting room text <+: text :=
  (prefix_fitting_iff.mp List.prefix_rfl).1

theorem size_fitting_le (room : Nat) (text : List Char) :
    size (fitting room text) ≤ room :=
  (prefix_fitting_iff.mp List.prefix_rfl).2

theorem fitting_append_of_fits {text more : List Char} {room : Nat}
    (fits : size text ≤ room) :
    fitting room (text ++ more) = text ++ fitting (room - size text) more := by
  induction text generalizing room with
  | nil => rfl
  | cons char text ih =>
      rw [size_cons] at fits
      rw [List.cons_append, fitting, if_pos (by omega), ih (by omega), size_cons,
        Nat.sub_add_eq, List.cons_append]

theorem fitting_append_of_cut {text more : List Char} {room : Nat}
    (overfull : room < size text) :
    fitting room (text ++ more) = fitting room text := by
  induction text generalizing room with
  | nil =>
      rw [size_nil] at overfull
      omega
  | cons char text ih =>
      rw [size_cons] at overfull
      rw [List.cons_append, fitting, fitting]
      split
      · rw [ih (by omega)]
      · rfl

/-- A cut leaves less room than a character can take. -/
theorem room_lt_of_cut {text : List Char} {room : Nat}
    (overfull : room < size text) : room - size (fitting room text) < 4 := by
  induction text generalizing room with
  | nil =>
      rw [size_nil] at overfull
      omega
  | cons char text ih =>
      rw [size_cons] at overfull
      rw [fitting]
      split
      · have left : room - char.utf8Size -
            size (fitting (room - char.utf8Size) text) < 4 := ih (by omega)
        rw [size_cons]
        omega
      · have widest := char.utf8Size_le_four
        rw [size_nil]
        omega

end Utf8

namespace Message

variable {capacity : Nat} {message : Message capacity}

theorem text_of_encode {text : List Char}
    (encoded : message.bytes = Utf8.encode text) :
    message.text = String.ofList text := by
  rw [Message.text, encoded, Utf8.decode?_encode]

theorem bytes_write_of_encode {text : List Char}
    (encoded : message.bytes = Utf8.encode text) (piece : String) :
    (message.write piece).bytes = Utf8.encode
      (text ++ Utf8.fitting (capacity - message.length) piece.toList) := by
  rw [bytes_write, encoded, Utf8.cut_encode, Utf8.encode_append]

end Message

end Nucleus
