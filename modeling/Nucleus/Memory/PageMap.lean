/-!
Which pages of the window are taken, one bit a page in words of 64 bits.  The
map always describes as many pages as the largest window has; a smaller window
uses the first of them.
-/

namespace Nucleus

/-- Pages of the largest window: 128 MiB of 4 KiB pages. -/
def maxPages : Nat := 32768

def bitOf (word : UInt64) (index : Nat) : Bool :=
  (word >>> UInt64.ofNat index) &&& 1 != 0

def withBit (word : UInt64) (index : Nat) (value : Bool) : UInt64 :=
  let mask := 1 <<< UInt64.ofNat index
  if value then word ||| mask else word &&& ~~~mask

theorem bitOf_eq_getLsbD (word : UInt64) {index : Nat} (inside : index < 64) :
    bitOf word index = word.toBitVec.getLsbD index := by
  have reduced : index % 64 = index := Nat.mod_eq_of_lt inside
  have clear : word >>> UInt64.ofNat index &&& 1 = 0 ↔
      word.toBitVec.getLsbD index = false := by
    rw [← UInt64.toBitVec_inj]
    simp only [UInt64.toBitVec_and, UInt64.toBitVec_shiftRight,
      UInt64.toBitVec_ofNat, BitVec.and_one_eq_setWidth_ofBool_getLsbD]
    cases bit : word.toBitVec.getLsbD index <;> simp [reduced, bit]
  unfold bitOf
  cases bit : word.toBitVec.getLsbD index
  · simp [clear.mpr bit]
  · simp only [bne_iff_ne, ne_eq, clear, bit, Bool.true_eq_false,
      not_false_eq_true]

theorem bitOf_withBit (word : UInt64) {index other : Nat}
    (inside : index < 64) (otherInside : other < 64) (value : Bool) :
    bitOf (withBit word index value) other =
      if other = index then value else bitOf word other := by
  have reduced : index % 64 = index := Nat.mod_eq_of_lt inside
  rw [bitOf_eq_getLsbD _ otherInside, bitOf_eq_getLsbD _ otherInside]
  cases value <;> simp [withBit, otherInside, reduced] <;> grind

structure PageMap where
  words : Vector UInt64 512

namespace PageMap

def empty : PageMap := ⟨Vector.replicate 512 0⟩

def isTaken (map : PageMap) (page : Nat) : Bool :=
  bitOf (map.words[page / 64]?.getD 0) (page % 64)

def setPage (map : PageMap) (page : Nat) (taken : Bool) : PageMap :=
  match map with
  | ⟨words⟩ =>
      let word := words[page / 64]?.getD 0
      ⟨words.setIfInBounds (page / 64) (withBit word (page % 64) taken)⟩

def mark (map : PageMap) (first count : Nat) (taken : Bool) : PageMap :=
  match count with
  | 0 => map
  | count + 1 => mark (map.setPage first taken) (first + 1) count taken

/-- Looks for `wanted` free pages in a row below `limit`, knowing that the
`run` pages before `page` are free. -/
def runFrom? (map : PageMap) (limit wanted page run : Nat) : Option Nat :=
  if page < limit then
    if map.isTaken page then runFrom? map limit wanted (page + 1) 0
    else if run + 1 = wanted then some (page - run)
    else runFrom? map limit wanted (page + 1) (run + 1)
  else
    none
termination_by limit - page

/-- The first page of the lowest run of `wanted` free pages below `limit`. -/
def firstRun? (map : PageMap) (limit wanted : Nat) : Option Nat :=
  map.runFrom? limit wanted 0 0

@[simp] theorem isTaken_empty (page : Nat) : empty.isTaken page = false := by
  simp only [isTaken, empty, Vector.getElem?_replicate]
  split <;> simp [bitOf]

theorem isTaken_setPage (map : PageMap) {page : Nat}
    (inside : page < maxPages) (taken : Bool) (other : Nat) :
    (map.setPage page taken).isTaken other =
      if other = page then taken else map.isTaken other := by
  unfold maxPages at inside
  have wordInside : page / 64 < 512 := by omega
  by_cases sameWord : other / 64 = page / 64
  · have sameBit : other % 64 = page % 64 ↔ other = page := by omega
    simp only [isTaken, setPage, sameWord, Vector.getElem?_setIfInBounds_self,
      wordInside, if_true, Option.getD_some]
    rw [bitOf_withBit _ (Nat.mod_lt _ (by decide)) (Nat.mod_lt _ (by decide))]
    simp only [sameBit]
  · have different : other ≠ page := fun same => sameWord (by rw [same])
    simp only [isTaken, setPage]
    rw [if_neg different,
      Vector.getElem?_setIfInBounds_ne (Ne.symm sameWord)]

@[simp] theorem mark_zero (map : PageMap) (first : Nat) (taken : Bool) :
    map.mark first 0 taken = map := rfl

theorem isTaken_mark (map : PageMap) (first count : Nat) (taken : Bool)
    (fits : first + count ≤ maxPages) (page : Nat) :
    (map.mark first count taken).isTaken page =
      if first ≤ page ∧ page < first + count then taken
      else map.isTaken page := by
  induction count generalizing map first with
  | zero =>
      have outside : ¬ (first ≤ page ∧ page < first + 0) := by omega
      rw [if_neg outside, mark_zero]
  | succ count ih =>
      rw [mark, ih _ _ (by omega), isTaken_setPage _ (by omega)]
      by_cases rest : first + 1 ≤ page ∧ page < first + 1 + count
      · have inside : first ≤ page ∧ page < first + (count + 1) := by omega
        rw [if_pos rest, if_pos inside]
      · by_cases here : page = first
        · have inside : first ≤ page ∧ page < first + (count + 1) := by omega
          rw [if_neg rest, if_pos here, if_pos inside]
        · have outside :
              ¬ (first ≤ page ∧ page < first + (count + 1)) := by omega
          rw [if_neg rest, if_neg here, if_neg outside]

end PageMap

end Nucleus
