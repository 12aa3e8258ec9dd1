import Nucleus.Proofs.Text.Cutting

/-!
Reading bytes that may be anything.  A character is read only from the bytes
that encode it.  Hence the text of the first stretch is encoded where the bytes
begin, and it is all there is if no part of them is broken.
-/

namespace Nucleus

namespace Utf8

theorem toNat_ofNat {value : Nat} (valid : value.isValidChar) :
    (Char.ofNat value).toNat = value := by
  rw [Char.ofNat, dif_pos valid]
  rfl

section

variable {lead second third fourth : UInt8}

theorem encodeChar_one (span : lead.toNat < 128) :
    String.utf8EncodeChar (Char.ofNat lead.toNat) = [lead] := by
  have valid : lead.toNat.isValidChar := Or.inl (by omega)
  unfold String.utf8EncodeChar
  simp only [Char.toNat_val, toNat_ofNat valid]
  rw [if_pos (by omega), UInt8.ofNat_toNat]

theorem encodeChar_two (span : 194 ≤ lead.toNat ∧ lead.toNat ≤ 223)
    (next : follows lead second = true) :
    String.utf8EncodeChar
        (Char.ofNat (lead.toNat % 32 * 64 + second.toNat % 64)) =
      [lead, second] := by
  rw [follows_iff] at next
  have valid : (lead.toNat % 32 * 64 + second.toNat % 64).isValidChar :=
    Or.inl (by omega)
  unfold String.utf8EncodeChar
  simp only [Char.toNat_val, toNat_ofNat valid]
  rw [if_neg (by omega), if_pos (by omega)]
  simp only [List.cons.injEq, ← UInt8.toNat_inj, UInt8.toNat_ofNat', and_true]
  omega

theorem encodeChar_three (span : 224 ≤ lead.toNat ∧ lead.toNat ≤ 239)
    (next : follows lead second = true)
    (last : isContinuation third = true) :
    String.utf8EncodeChar
        (Char.ofNat (lead.toNat % 16 * 4096 + second.toNat % 64 * 64 +
          third.toNat % 64)) =
      [lead, second, third] := by
  rw [follows_iff] at next
  rw [isContinuation_iff] at last
  have valid : (lead.toNat % 16 * 4096 + second.toNat % 64 * 64 +
      third.toNat % 64).isValidChar := by
    unfold Nat.isValidChar
    omega
  unfold String.utf8EncodeChar
  simp only [Char.toNat_val, toNat_ofNat valid]
  rw [if_neg (by omega), if_neg (by omega), if_pos (by omega)]
  simp only [List.cons.injEq, ← UInt8.toNat_inj, UInt8.toNat_ofNat', and_true]
  omega

theorem encodeChar_four (span : 240 ≤ lead.toNat ∧ lead.toNat ≤ 244)
    (next : follows lead second = true)
    (middle : isContinuation third = true)
    (last : isContinuation fourth = true) :
    String.utf8EncodeChar
        (Char.ofNat (lead.toNat % 8 * 262144 + second.toNat % 64 * 4096 +
          third.toNat % 64 * 64 + fourth.toNat % 64)) =
      [lead, second, third, fourth] := by
  rw [follows_iff] at next
  rw [isContinuation_iff] at middle last
  have valid : (lead.toNat % 8 * 262144 + second.toNat % 64 * 4096 +
      third.toNat % 64 * 64 + fourth.toNat % 64).isValidChar := by
    unfold Nat.isValidChar
    omega
  unfold String.utf8EncodeChar
  simp only [Char.toNat_val, toNat_ofNat valid]
  rw [if_neg (by omega), if_neg (by omega), if_neg (by omega)]
  simp only [List.cons.injEq, ← UInt8.toNat_inj, UInt8.toNat_ofNat', and_true]
  omega

end

theorem bounds_of_span? {lead : UInt8} {width : Nat}
    (found : span? lead = some width) :
    (width = 1 ∧ lead.toNat < 128) ∨
      (width = 2 ∧ 194 ≤ lead.toNat ∧ lead.toNat ≤ 223) ∨
      (width = 3 ∧ 224 ≤ lead.toNat ∧ lead.toNat ≤ 239) ∨
      (width = 4 ∧ 240 ≤ lead.toNat ∧ lead.toNat ≤ 244) := by
  rw [span?_eq] at found
  split_ifs at found <;> cases found <;> omega

/-- A character is read only from the bytes that encode it. -/
theorem eq_append_of_readChar {lead : UInt8} {rest others : List UInt8}
    {char : Char} (reads : readChar lead rest = (some char, others)) :
    lead :: rest = String.utf8EncodeChar char ++ others := by
  unfold readChar at reads
  split at reads
  · rename_i found
    have bounds := bounds_of_span? found
    have span : lead.toNat < 128 := by omega
    cases reads
    exact congrArg (· ++ _) (encodeChar_one span).symm
  · rename_i second rest found
    have bounds := bounds_of_span? found
    have span : 194 ≤ lead.toNat ∧ lead.toNat ≤ 223 := by omega
    split at reads
    · rename_i next
      cases reads
      exact congrArg (· ++ _) (encodeChar_two span next).symm
    · cases reads
  · rename_i second rest found
    have bounds := bounds_of_span? found
    have span : 224 ≤ lead.toNat ∧ lead.toNat ≤ 239 := by omega
    repeat' split at reads
    · rename_i next _ third rest last
      cases reads
      exact congrArg (· ++ _) (encodeChar_three span next last).symm
    all_goals cases reads
  · rename_i second rest found
    have bounds := bounds_of_span? found
    have span : 240 ≤ lead.toNat ∧ lead.toNat ≤ 244 := by omega
    repeat' split at reads
    · rename_i next _ third middle _ fourth rest last
      cases reads
      exact congrArg (· ++ _) (encodeChar_four span next middle last).symm
    all_goals cases reads
  · cases reads

/-- The first stretch is encoded where the bytes begin. -/
theorem exists_prefix_of_chunksAfter (before : List Char)
    (bytes : List UInt8) :
    ∃ text, encode text <+: bytes ∧
      ∀ first ∈ (chunksAfter before bytes).head?,
        first.text = before.reverse ++ text := by
  induction before, bytes using chunksAfter.induct with
  | case1 before bare =>
      rw [chunksAfter, if_pos bare]
      exact ⟨[], List.nil_prefix, fun _ none => by cases none⟩
  | case2 before text =>
      rw [chunksAfter, if_neg text]
      refine ⟨[], List.nil_prefix, fun first only => ?_⟩
      cases only
      exact (List.append_nil _).symm
  | case3 before lead rest reading char reads ih =>
      obtain ⟨text, begins, stretch⟩ := ih
      rw [chunksAfter, reads]
      refine ⟨char :: text, ?_, fun first found => ?_⟩
      · have outcome : readChar lead rest = (some char, reading.2) := by
          rw [← reads]
        rw [eq_append_of_readChar outcome, encode_cons,
          List.prefix_append_right_inj]
        exact begins
      · rw [stretch first found, List.reverse_cons, List.append_assoc,
          List.singleton_append]
  | case4 before lead rest reading reads ih =>
      rw [chunksAfter, reads]
      refine ⟨[], List.nil_prefix, fun first only => ?_⟩
      cases only
      exact (List.append_nil _).symm

theorem prefix_encode_soundText (bytes : List UInt8) :
    encode (soundText bytes) <+: bytes := by
  obtain ⟨text, begins, stretch⟩ := exists_prefix_of_chunksAfter [] bytes
  rw [soundText, chunks]
  cases parts : chunksAfter [] bytes with
  | nil => exact List.nil_prefix
  | cons first more =>
      rw [parts] at stretch
      dsimp only
      rwa [stretch first rfl]

theorem soundText_of_decode? {bytes : List UInt8} {text : List Char}
    (decoded : decode? bytes = some text) : soundText bytes = text := by
  have stretches := stretches_chunks bytes
  rw [decode?] at decoded
  rw [soundText]
  generalize chunks bytes = parts at decoded stretches ⊢
  cases stretches with
  | none =>
      cases decoded
      rfl
  | last text =>
      cases decoded
      exact (List.append_nil _).symm
  | broken text later => cases decoded

end Utf8

end Nucleus
