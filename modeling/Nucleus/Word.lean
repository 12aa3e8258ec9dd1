/-!
Words.  Registers and addresses are words of 64 bits.  Quantities are natural
numbers here, so a sum is always what it should be; whether a word can hold it
is asked apart.
-/

namespace Nucleus

def maxWord : Nat := UInt64.size - 1

/-- No word can hold the value. -/
def overflowsWord (value : Nat) : Bool :=
  decide (maxWord < value)

theorem overflowsWord_iff (value : Nat) :
    overflowsWord value = true ↔ maxWord < value := by
  simp [overflowsWord]

def wordProduct? (left right : Nat) : Option Nat :=
  if overflowsWord (left * right) then none else some (left * right)

/-- The sum of two words, or the largest word in place of what no word can
hold. -/
def saturatingSum (left right : Nat) : Nat :=
  min maxWord (left + right)

theorem toNat_ofNat_of_le_maxWord {value : Nat} (fits : value ≤ maxWord) :
    (UInt64.ofNat value).toNat = value := by
  apply UInt64.toNat_ofNat_of_lt'
  have positive : 0 < UInt64.size := by decide
  unfold maxWord at fits
  omega

end Nucleus
