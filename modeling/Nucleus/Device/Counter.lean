import Nucleus.Word

/-!
The system counter.  It counts ticks of a fixed frequency; deadlines are kept
in milliseconds.  Ticks round down to milliseconds and milliseconds round up to
ticks, so a comparator never fires before the millisecond clock has reached its
deadline.

Both conversions deal with seconds and with what is left of one apart.  The
seconds may be too many for a word, and then the result is the largest one; the
rest is worked out in two words.
-/

namespace Nucleus

namespace Counter

/-- A number of seconds' worth and a part of another, up to the largest
word. -/
def inWord (seconds worth part : Nat) : Nat :=
  match wordProduct? seconds worth with
  | none => maxWord
  | some whole => saturatingSum whole part

def maxDouble : Nat := UInt64.size * UInt64.size - 1

/-- Two words cannot hold the product, or one cannot hold its quotient. -/
def exceeds (product quotient : Nat) : Bool :=
  decide (maxDouble < product) || overflowsWord quotient

def millisecondsLeft (ticks frequency : Nat) : Nat :=
  ticks % frequency * 1000 / frequency

def millisecondsOf (ticks frequency : Nat) : Nat :=
  if frequency = 0 then 0
  else inWord (ticks / frequency) 1000 (millisecondsLeft ticks frequency)

def ticksLeft (milliseconds frequency : Nat) : Nat :=
  (milliseconds % 1000 * frequency + 999) / 1000

/-- The first tick at which the clock shows a number of milliseconds, up to
the largest word. -/
def ticksOf (milliseconds frequency : Nat) : Nat :=
  inWord (milliseconds / 1000) frequency (ticksLeft milliseconds frequency)

def millisecondsOverflow (ticks frequency : Nat) : Bool :=
  decide (frequency ≠ 0) &&
    exceeds (ticks % frequency * 1000) (millisecondsLeft ticks frequency)

def ticksOverflow (milliseconds frequency : Nat) : Bool :=
  exceeds (milliseconds % 1000 * frequency) (ticksLeft milliseconds frequency)

theorem inWord_eq (seconds worth part : Nat) :
    inWord seconds worth part = min maxWord (seconds * worth + part) := by
  unfold inWord wordProduct? saturatingSum
  by_cases large : maxWord < seconds * worth
  · rw [if_pos ((overflowsWord_iff _).mpr large)]
    dsimp only
    omega
  · rw [if_neg (mt (overflowsWord_iff _).mp large)]

end Counter

end Nucleus
