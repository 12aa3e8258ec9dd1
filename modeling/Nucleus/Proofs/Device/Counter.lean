import Mathlib.Algebra.Order.Floor.Div
import Mathlib.GroupTheory.GroupAction.Ring
import Mathlib.Order.Bounds.Defs
import Nucleus.Device.Counter

/-!
Ticks and milliseconds.  Either conversion is the exact quotient, rounded its
own way and cut at the largest word, and nothing on the way outgrows the words
that it is kept in.  The conversions are adjoint: a comparator that is set to a
deadline fires at a tick exactly if the clock has reached the deadline by then.
-/

namespace Nucleus

namespace Counter

variable {ticks milliseconds frequency : Nat}

theorem seconds_add_left (ticks : Nat) (running : 0 < frequency) :
    ticks / frequency * 1000 + millisecondsLeft ticks frequency =
      1000 * ticks / frequency := by
  have split : 1000 * ticks =
      frequency * (ticks / frequency * 1000) + ticks % frequency * 1000 := by
    calc 1000 * ticks
        = (frequency * (ticks / frequency) + ticks % frequency) * 1000 := by
          rw [Nat.div_add_mod, Nat.mul_comm]
      _ = frequency * (ticks / frequency * 1000) +
            ticks % frequency * 1000 := by
          rw [Nat.add_mul, Nat.mul_assoc]
  rw [split, Nat.mul_add_div running, millisecondsLeft]

theorem millisecondsOf_eq (ticks : Nat) (running : 0 < frequency) :
    millisecondsOf ticks frequency =
      min maxWord (1000 * ticks / frequency) := by
  rw [millisecondsOf, if_neg (Nat.ne_of_gt running), inWord_eq,
    seconds_add_left ticks running]

theorem seconds_add_ticksLeft (milliseconds frequency : Nat) :
    milliseconds / 1000 * frequency + ticksLeft milliseconds frequency =
      milliseconds * frequency ⌈/⌉ 1000 := by
  have split : milliseconds * frequency + 1000 - 1 =
      1000 * (milliseconds / 1000 * frequency) +
        (milliseconds % 1000 * frequency + 999) := by
    have parts := Nat.div_add_mod milliseconds 1000
    calc milliseconds * frequency + 1000 - 1
        = (1000 * (milliseconds / 1000) + milliseconds % 1000) *
            frequency + 999 := by
          rw [parts]
          rfl
      _ = 1000 * (milliseconds / 1000 * frequency) +
            (milliseconds % 1000 * frequency + 999) := by
          rw [Nat.add_mul, Nat.mul_assoc, Nat.add_assoc]
  rw [Nat.ceilDiv_eq_add_pred_div, split, Nat.mul_add_div (by decide),
    ticksLeft]

theorem ticksOf_eq (milliseconds frequency : Nat) :
    ticksOf milliseconds frequency =
      min maxWord (milliseconds * frequency ⌈/⌉ 1000) := by
  rw [ticksOf, inWord_eq, seconds_add_ticksLeft]

theorem exceeds_eq_false {product quotient : Nat} (narrow : product ≤ maxDouble)
    (short : quotient ≤ maxWord) : exceeds product quotient = false := by
  rw [exceeds, decide_eq_false (Nat.not_lt.mpr narrow), Bool.false_or,
    Bool.eq_false_iff, ne_eq, overflowsWord_iff]
  exact Nat.not_lt.mpr short

theorem thousand_words_le {factor word : Nat} (small : factor ≤ 1000)
    (fits : word ≤ maxWord) : factor * word ≤ maxDouble := by
  refine (Nat.mul_le_mul small fits).trans ?_
  decide

theorem millisecondsLeft_lt (ticks : Nat) (running : 0 < frequency) :
    millisecondsLeft ticks frequency < 1000 := by
  rw [millisecondsLeft, Nat.div_lt_iff_lt_mul running, Nat.mul_comm 1000]
  exact Nat.mul_lt_mul_of_pos_right (Nat.mod_lt ticks running) (by decide)

theorem ticksLeft_le (milliseconds frequency : Nat) :
    ticksLeft milliseconds frequency ≤ frequency := by
  have part : milliseconds % 1000 * frequency ≤ 999 * frequency :=
    Nat.mul_le_mul_right frequency
      (Nat.le_of_lt_succ (Nat.mod_lt milliseconds (by decide)))
  unfold ticksLeft
  omega

theorem millisecondsOverflow_eq_false (ticks : Nat)
    (word : frequency ≤ maxWord) :
    millisecondsOverflow ticks frequency = false := by
  rcases Nat.eq_zero_or_pos frequency with rfl | running
  · rfl
  · have left : ticks % frequency ≤ maxWord :=
      (Nat.mod_lt ticks running).le.trans word
    have short := (millisecondsLeft_lt ticks running).le
    rw [millisecondsOverflow, Nat.mul_comm, exceeds_eq_false
      (thousand_words_le le_rfl left) (short.trans (by decide)),
      Bool.and_false]

theorem ticksOverflow_eq_false (milliseconds : Nat)
    (word : frequency ≤ maxWord) :
    ticksOverflow milliseconds frequency = false :=
  exceeds_eq_false
    (thousand_words_le (Nat.mod_lt milliseconds (by decide)).le word)
    ((ticksLeft_le milliseconds frequency).trans word)

/-- Cut at the largest word, a number is compared with smaller ones as it is
uncut. -/
theorem cut_le_iff {number bound : Nat} (below : bound < maxWord) :
    min maxWord number ≤ bound ↔ number ≤ bound := by
  rw [min_le_iff, or_iff_right (Nat.not_le.mpr below)]

theorem le_millisecondsOf_iff (running : 0 < frequency)
    (word : milliseconds ≤ maxWord) (before : ticks < maxWord) :
    milliseconds ≤ millisecondsOf ticks frequency ↔
      ticksOf milliseconds frequency ≤ ticks := by
  calc milliseconds ≤ millisecondsOf ticks frequency
      ↔ milliseconds ≤ 1000 * ticks / frequency := by
        rw [millisecondsOf_eq ticks running, le_min_iff, and_iff_right word]
    _ ↔ milliseconds * frequency ≤ 1000 * ticks :=
        Nat.le_div_iff_mul_le running
    _ ↔ milliseconds * frequency ⌈/⌉ 1000 ≤ ticks :=
        (ceilDiv_le_iff_le_mul (by decide)).symm
    _ ↔ ticksOf milliseconds frequency ≤ ticks := by
        rw [ticksOf_eq, cut_le_iff before]

structure Agree (frequency : Nat) : Prop where
  milliseconds_eq : ∀ ticks ≤ maxWord, millisecondsOf ticks frequency =
    min maxWord (1000 * ticks / frequency)
  ticks_eq : ∀ milliseconds ≤ maxWord, ticksOf milliseconds frequency =
    min maxWord (milliseconds * frequency ⌈/⌉ 1000)
  adjoint : ∀ milliseconds ≤ maxWord, ∀ ticks < maxWord,
    milliseconds ≤ millisecondsOf ticks frequency ↔
      ticksOf milliseconds frequency ≤ ticks
  /-- A comparator that can be reached fires as soon as the deadline has
  come. -/
  first : ∀ milliseconds ≤ maxWord, ticksOf milliseconds frequency < maxWord →
    IsLeast {ticks | milliseconds ≤ millisecondsOf ticks frequency}
      (ticksOf milliseconds frequency)
  /-- One that cannot be reached is set for a deadline that never comes. -/
  never : ∀ milliseconds ≤ maxWord, ticksOf milliseconds frequency = maxWord →
    ∀ ticks < maxWord, millisecondsOf ticks frequency < milliseconds

theorem agree (running : 0 < frequency) : Agree frequency where
  milliseconds_eq ticks _ := millisecondsOf_eq ticks running
  ticks_eq milliseconds _ := ticksOf_eq milliseconds frequency
  adjoint _ word _ before := le_millisecondsOf_iff running word before
  first milliseconds word reachable := by
    refine ⟨(le_millisecondsOf_iff running word reachable).mpr le_rfl, ?_⟩
    intro ticks reached
    rcases Nat.lt_or_ge ticks maxWord with before | last
    · exact (le_millisecondsOf_iff running word before).mp reached
    · exact reachable.le.trans last
  never milliseconds word unreachable ticks before := by
    rw [← Nat.not_le, le_millisecondsOf_iff running word before, unreachable]
    exact Nat.not_le.mpr before

/-- The conversions never overflow, and for a counter that runs they agree. -/
theorem clock_and_comparator (frequency : Nat) (word : frequency ≤ maxWord) :
    (∀ ticks ≤ maxWord, millisecondsOverflow ticks frequency = false) ∧
      (∀ milliseconds ≤ maxWord,
        ticksOverflow milliseconds frequency = false) ∧
      (0 < frequency → Agree frequency) :=
  ⟨fun ticks _ => millisecondsOverflow_eq_false ticks word,
    fun milliseconds _ => ticksOverflow_eq_false milliseconds word, agree⟩

/-- A counter slower than the clock skips milliseconds: it ticks seven times in
a second, and the first tick shows 142 of them. -/
theorem clock_and_comparator_slow :
    (7 ≤ maxWord ∧ 0 < 7) ∧ Agree 7 ∧
      ticksOf 100 7 = 1 ∧ millisecondsOf 1 7 = 142 ∧
      ticksOf maxWord 1000000 = maxWord :=
  ⟨by decide, (clock_and_comparator 7 (by decide)).2.2 (by decide),
    by decide, by decide, by decide⟩

end Counter

end Nucleus
