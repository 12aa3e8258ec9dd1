import Mathlib.Data.Nat.Digits.Defs
import Nucleus.Proofs.Text.Cutting
import Nucleus.Text.Bytes
import Nucleus.Text.Numeral

namespace Nucleus

namespace Numeral

def value (base : Nat) (numeral : List Char) : Nat :=
  numeral.foldl
    (fun number digit => number * base + (Bytes.digit? digit).getD 0) 0

theorem digit?_digitChar {digit : Nat} (small : digit < 16) :
    Bytes.digit? (Nat.digitChar digit) = some digit := by
  have all : ∀ digit < 16,
      Bytes.digit? (Nat.digitChar digit) = some digit := by
    decide
  exact all digit small

theorem value_digits {base : Nat} (least : 2 ≤ base) (most : base ≤ 16)
    (number : Nat) : value base (digits base number) = number := by
  induction number using Nat.strong_induction_on with
  | h number ih =>
      rw [digits]
      split
      · rename_i single
        rw [value, List.foldl_cons, List.foldl_nil,
          digit?_digitChar (by omega), Option.getD_some]
        omega
      · rename_i several
        have positive : 0 < number := by omega
        have low := Nat.mod_lt number (show 0 < base by omega)
        have high := ih (number / base) (Nat.div_lt_self positive least)
        rw [value] at high
        rw [value, List.foldl_append, high, List.foldl_cons, List.foldl_nil,
          digit?_digitChar (by omega), Option.getD_some]
        exact Nat.div_add_mod' number base

theorem value_zeros (base count : Nat) (numeral : List Char) :
    value base (List.replicate count '0' ++ numeral) = value base numeral := by
  induction count with
  | zero => rfl
  | succ count ih =>
      rw [← ih, List.replicate_succ, List.cons_append, value, List.foldl_cons,
        Nat.zero_mul]
      rfl

theorem value_padded (base width : Nat) (numeral : List Char) :
    value base (padded width numeral) = value base numeral :=
  value_zeros base _ numeral

theorem digits_inj {base left right : Nat} (least : 2 ≤ base)
    (most : base ≤ 16) (same : digits base left = digits base right) :
    left = right := by
  rw [← value_digits least most left, same, value_digits least most]

theorem decimal_inj {left right : Nat}
    (same : decimal left = decimal right) : left = right :=
  digits_inj (by decide) (by decide) (String.ofList_injective same)

theorem paddedHex_inj {width left right : Nat}
    (same : paddedHex width left = paddedHex width right) : left = right := by
  have same := congrArg (fun text => value 16 (text.drop 2))
    (String.ofList_injective same)
  simp only [List.drop_succ_cons, List.drop_zero, value_padded] at same
  rwa [value_digits (by decide) (by decide),
    value_digits (by decide) (by decide)] at same

theorem exists_digitChar {base number : Nat} {char : Char}
    (least : 2 ≤ base) (most : base ≤ 16)
    (member : char ∈ digits base number) :
    ∃ digit < 16, char = Nat.digitChar digit := by
  induction number using Nat.strong_induction_on with
  | h number ih =>
      rw [digits] at member
      split at member
      · exact ⟨number, by omega, List.mem_singleton.mp member⟩
      · rename_i several
        have low := Nat.mod_lt number (show 0 < base by omega)
        rcases List.mem_append.mp member with first | last
        · exact ih (number / base)
            (Nat.div_lt_self (by omega) least) first
        · exact ⟨number % base, by omega, List.mem_singleton.mp last⟩

theorem plus_notMem_hexDigits (number : Nat) : '+' ∉ digits 16 number := by
  intro member
  obtain ⟨digit, -, same⟩ :=
    exists_digitChar (by decide) (by decide) member
  exact Nat.digitChar_ne '+' (by decide) same.symm

theorem utf8Size_digitChar {digit : Nat} (small : digit < 16) :
    (Nat.digitChar digit).utf8Size = 1 := by
  have all : ∀ digit < 16, (Nat.digitChar digit).utf8Size = 1 := by decide
  exact all digit small

theorem digits_eq_toDigits {base : Nat} (least : 2 ≤ base) (number : Nat) :
    digits base number = Nat.toDigits base number := by
  induction number using Nat.strong_induction_on with
  | h number ih =>
      rw [digits, Nat.toDigits_eq_if least]
      by_cases single : number < base
      · rw [if_pos (.inl single), if_pos single]
      · rw [if_neg (by omega), if_neg single,
          ih _ (Nat.div_lt_self (by omega) least)]

theorem size_digits {base : Nat} (least : 2 ≤ base) (most : base ≤ 16)
    (number : Nat) :
    Utf8.size (digits base number) = (digits base number).length := by
  apply Utf8.size_eq_length
  intro char member
  obtain ⟨digit, small, rfl⟩ := exists_digitChar least most member
  exact utf8Size_digitChar small

theorem size_digits_le {base number count : Nat} (least : 2 ≤ base)
    (most : base ≤ 16) (positive : 0 < count) (fits : number < base ^ count) :
    Utf8.size (digits base number) ≤ count := by
  rw [size_digits least most, digits_eq_toDigits least]
  exact Nat.toDigits_length base number count positive fits

theorem size_decimal_le {number count : Nat} (positive : 0 < count)
    (fits : number < 10 ^ count) :
    Utf8.size (decimal number).toList ≤ count := by
  rw [decimal, String.toList_ofList]
  exact size_digits_le (by decide) (by decide) positive fits

theorem size_zeros (count : Nat) :
    Utf8.size (List.replicate count '0') = count := by
  rw [Utf8.size_eq_length, List.length_replicate]
  intro char member
  rw [List.eq_of_mem_replicate member]
  rfl

theorem size_paddedHex_word (word : UInt64) :
    (paddedHex 16 word.toNat).toList.length = 18 ∧
      Utf8.size (paddedHex 16 word.toNat).toList = 18 := by
  have fits : word.toNat < 16 ^ 16 := word.toNat_lt
  have short := size_digits_le (by decide) (by decide) (by decide) fits
  have bare : Utf8.size (digits 16 word.toNat) =
      (digits 16 word.toNat).length :=
    size_digits (by decide) (by decide) word.toNat
  have marked : (paddedHex 16 word.toNat).toList =
      '0' :: 'x' :: padded 16 (digits 16 word.toNat) :=
    String.toList_ofList
  have mark : ('0' : Char).utf8Size = 1 ∧ ('x' : Char).utf8Size = 1 :=
    ⟨rfl, rfl⟩
  rw [marked]
  constructor
  · rw [List.length_cons, List.length_cons, length_padded]
    omega
  · rw [Utf8.size_cons, Utf8.size_cons, padded, Utf8.size_append, size_zeros,
      mark.1, mark.2]
    omega

end Numeral

end Nucleus
