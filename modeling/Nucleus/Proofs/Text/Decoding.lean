import Mathlib.Tactic.SplitIfs
import Nucleus.Text.Utf8

namespace Nucleus

namespace Utf8

theorem isContinuation_iff {byte : UInt8} :
    isContinuation byte = true ↔ 128 ≤ byte.toNat ∧ byte.toNat ≤ 191 := by
  rw [isContinuation, Bool.and_eq_true, decide_eq_true_eq, decide_eq_true_eq]
  exact Iff.rfl

theorem follows_iff {lead next : UInt8} :
    follows lead next = true ↔
      (128 ≤ next.toNat ∧ next.toNat ≤ 191) ∧
        (lead.toNat = 224 → 160 ≤ next.toNat) ∧
        (lead.toNat = 237 → next.toNat ≤ 159) ∧
        (lead.toNat = 240 → 144 ≤ next.toNat) ∧
        (lead.toNat = 244 → next.toNat ≤ 143) := by
  unfold follows
  simp only [← UInt8.toNat_inj, UInt8.reduceToNat]
  split_ifs <;>
    simp only [isContinuation_iff, Bool.and_eq_true, decide_eq_true_eq,
      UInt8.le_iff_toNat_le, UInt8.reduceToNat] <;> omega

theorem span?_eq (lead : UInt8) :
    span? lead =
      if lead.toNat < 128 then some 1
      else if 194 ≤ lead.toNat ∧ lead.toNat ≤ 223 then some 2
      else if 224 ≤ lead.toNat ∧ lead.toNat ≤ 239 then some 3
      else if 240 ≤ lead.toNat ∧ lead.toNat ≤ 244 then some 4
      else none := by
  unfold span?
  simp only [Bool.and_eq_true, decide_eq_true_eq, UInt8.le_iff_toNat_le,
    UInt8.lt_iff_toNat_lt, UInt8.reduceToNat]

section

variable {lead second third fourth : UInt8} {rest : List UInt8}

theorem readChar_one (span : lead.toNat < 128) :
    readChar lead rest = (some (Char.ofNat lead.toNat), rest) := by
  have span : span? lead = some 1 := by rw [span?_eq, if_pos span]
  simp only [readChar, span]

theorem readChar_two (span : 194 ≤ lead.toNat ∧ lead.toNat ≤ 223)
    (next : isContinuation second = true) :
    readChar lead (second :: rest) =
      (some (Char.ofNat (lead.toNat % 32 * 64 + second.toNat % 64)), rest) := by
  have next : follows lead second = true := by
    rw [isContinuation_iff] at next
    rw [follows_iff]
    omega
  have span : span? lead = some 2 := by
    rw [span?_eq, if_neg (by omega), if_pos span]
  simp only [readChar, span, next, if_true]
  rfl

theorem readChar_three (span : 224 ≤ lead.toNat ∧ lead.toNat ≤ 239)
    (next : follows lead second = true)
    (last : isContinuation third = true) :
    readChar lead (second :: third :: rest) =
      (some (Char.ofNat (lead.toNat % 16 * 4096 + second.toNat % 64 * 64 +
        third.toNat % 64)), rest) := by
  have span : span? lead = some 3 := by
    rw [span?_eq, if_neg (by omega), if_neg (by omega), if_pos span]
  simp only [readChar, span, next, last, if_true]
  rfl

theorem readChar_four (span : 240 ≤ lead.toNat ∧ lead.toNat ≤ 244)
    (next : follows lead second = true)
    (middle : isContinuation third = true)
    (last : isContinuation fourth = true) :
    readChar lead (second :: third :: fourth :: rest) =
      (some (Char.ofNat (lead.toNat % 8 * 262144 +
        second.toNat % 64 * 4096 + third.toNat % 64 * 64 +
        fourth.toNat % 64)), rest) := by
  have span : span? lead = some 4 := by
    rw [span?_eq, if_neg (by omega), if_neg (by omega), if_neg (by omega),
      if_pos span]
  simp only [readChar, span, next, middle, last, if_true]
  rfl

end

theorem ofNat_eq {char : Char} {value : Nat} (same : value = char.toNat) :
    Char.ofNat value = char := by
  rw [same, Char.ofNat_toNat]

/-- A character is read back from the bytes that encode it. -/
theorem readChar_encode (char : Char) :
    ∃ lead tail, String.utf8EncodeChar char = lead :: tail ∧
      ∀ rest, readChar lead (tail ++ rest) = (some char, rest) := by
  have valid : char.toNat.isValidChar := char.valid
  unfold Nat.isValidChar at valid
  unfold String.utf8EncodeChar
  simp only [Char.toNat_val]
  split_ifs with one two three
  · refine ⟨_, _, rfl, fun rest => ?_⟩
    rw [List.nil_append, readChar_one, ofNat_eq]
    all_goals rw [UInt8.toNat_ofNat']; omega
  · refine ⟨_, _, rfl, fun rest => ?_⟩
    simp only [List.cons_append, List.nil_append]
    rw [readChar_two, ofNat_eq]
    all_goals simp only [isContinuation_iff, UInt8.toNat_ofNat']; omega
  · refine ⟨_, _, rfl, fun rest => ?_⟩
    simp only [List.cons_append, List.nil_append]
    rw [readChar_three, ofNat_eq]
    all_goals
      simp only [follows_iff, isContinuation_iff, UInt8.toNat_ofNat']; omega
  · refine ⟨_, _, rfl, fun rest => ?_⟩
    simp only [List.cons_append, List.nil_append]
    rw [readChar_four, ofNat_eq]
    all_goals
      simp only [follows_iff, isContinuation_iff, UInt8.toNat_ofNat']; omega

def replacement : Char := Char.ofNat 0xfffd

def Chunk.lossy (chunk : Chunk) : List Char :=
  if chunk.broken then chunk.text ++ [replacement] else chunk.text

theorem lossy_eq (bytes : List UInt8) :
    lossy bytes = (chunks bytes).flatMap Chunk.lossy :=
  rfl

inductive Stretches : List Chunk → Prop
  | none : Stretches []
  | last (text : List Char) : Stretches [⟨text, false⟩]
  | broken (text : List Char) {rest : List Chunk} :
      Stretches rest → Stretches (⟨text, true⟩ :: rest)

theorem stretches_chunksAfter (before : List Char) (bytes : List UInt8) :
    Stretches (chunksAfter before bytes) := by
  induction before, bytes using chunksAfter.induct with
  | case1 before bare =>
      rw [chunksAfter, if_pos bare]
      exact .none
  | case2 before text =>
      rw [chunksAfter, if_neg text]
      exact .last _
  | case3 before lead rest reading char reads ih =>
      rw [chunksAfter, reads]
      exact ih
  | case4 before lead rest reading reads ih =>
      rw [chunksAfter, reads]
      exact .broken _ ih

theorem stretches_chunks (bytes : List UInt8) : Stretches (chunks bytes) :=
  stretches_chunksAfter [] bytes

theorem chunksAfter_of_readChar {before : List Char} {lead : UInt8}
    {rest others : List UInt8} {char : Char}
    (reads : readChar lead rest = (some char, others)) :
    chunksAfter before (lead :: rest) = chunksAfter (char :: before) others := by
  rw [chunksAfter, reads]

theorem chunksAfter_encode (before text : List Char) (rest : List UInt8) :
    chunksAfter before (encode text ++ rest) =
      chunksAfter (text.reverse ++ before) rest := by
  induction text generalizing before with
  | nil => rfl
  | cons char text ih =>
      obtain ⟨lead, tail, encoded, reads⟩ := readChar_encode char
      calc chunksAfter before (encode (char :: text) ++ rest)
          = chunksAfter before (lead :: (tail ++ (encode text ++ rest))) := by
            rw [encode, List.flatMap_cons, encoded, ← encode]
            simp only [List.cons_append, List.append_assoc]
        _ = chunksAfter (char :: before) (encode text ++ rest) :=
            chunksAfter_of_readChar (reads _)
        _ = chunksAfter ((char :: text).reverse ++ before) rest := by
            rw [ih, List.reverse_cons, List.append_assoc, List.singleton_append]

theorem chunks_encode (text : List Char) :
    chunks (encode text) = if text.isEmpty then [] else [⟨text, false⟩] := by
  have reads := chunksAfter_encode [] text []
  rw [List.append_nil, List.append_nil] at reads
  rw [chunks, reads, chunksAfter, List.isEmpty_reverse, List.reverse_reverse]

end Utf8

end Nucleus
