import Nucleus.Text.Numeral

/-!
Memory of the processes as the kernel sees it: one window of bytes, all zero at
first.  A range of addresses may be touched only if it lies in the window; an
empty range still has to start inside it, or right at its end.
-/

namespace Nucleus

/-- A range that may not be touched. -/
structure BadAddress where
  address : Nat
  length : Nat
  deriving DecidableEq, Repr

def BadAddress.text (bad : BadAddress) : String :=
  "bad user range " ++ Numeral.hex bad.address ++ "+" ++
    Numeral.decimal bad.length

structure Store where
  address : Nat
  bytes : Array UInt8
  deriving DecidableEq, Repr

def Store.covers (store : Store) (address : Nat) : Bool :=
  store.address ≤ address && address < store.address + store.bytes.size

structure UserMemory where
  base : Nat
  size : Nat
  /-- The stores made so far, the last one first. -/
  stores : List Store
  deriving DecidableEq, Repr

namespace UserMemory

def zeroed (base size : Nat) : UserMemory := ⟨base, size, []⟩

def accessible (memory : UserMemory) (address length : Nat) : Bool :=
  memory.base ≤ address && address + length ≤ memory.base + memory.size

/-- The byte at an address: the last one stored there. -/
def byteAt (memory : UserMemory) (address : Nat) : UInt8 :=
  match memory.stores.find? (·.covers address) with
  | some store => store.bytes[address - store.address]?.getD 0
  | none => 0

/-- The bytes of a range, wherever it lies. -/
def bytesAt (memory : UserMemory) (address length : Nat) : List UInt8 :=
  (List.range length).map fun offset => memory.byteAt (address + offset)

def check (memory : UserMemory) (address length : Nat) :
    Except BadAddress Unit :=
  if memory.accessible address length then .ok ()
  else .error ⟨address, length⟩

def read (memory : UserMemory) (address length : Nat) :
    Except BadAddress (List UInt8) :=
  if memory.accessible address length then
    .ok (memory.bytesAt address length)
  else
    .error ⟨address, length⟩

/-- Stores bytes, wherever they land. -/
def store (memory : UserMemory) (address : Nat) (bytes : List UInt8) :
    UserMemory :=
  { memory with stores := ⟨address, bytes.toArray⟩ :: memory.stores }

def write (memory : UserMemory) (address : Nat) (bytes : List UInt8) :
    Except BadAddress UserMemory :=
  if memory.accessible address bytes.length then
    .ok (memory.store address bytes)
  else
    .error ⟨address, bytes.length⟩

@[simp] theorem length_bytesAt (memory : UserMemory)
    (address length : Nat) :
    (memory.bytesAt address length).length = length := by
  simp [bytesAt]

theorem byteAt_store (memory : UserMemory) (start address : Nat)
    (bytes : List UInt8) :
    (memory.store start bytes).byteAt address =
      if start ≤ address ∧ address < start + bytes.length then
        bytes[address - start]?.getD 0
      else memory.byteAt address := by
  by_cases inside : start ≤ address ∧ address < start + bytes.length
  · simp [byteAt, store, Store.covers, inside]
  · rw [if_neg inside]
    have outside : Store.covers ⟨start, bytes.toArray⟩ address = false := by
      simp only [Store.covers, List.size_toArray, Bool.and_eq_false_imp,
        decide_eq_true_eq, decide_eq_false_iff_not]
      omega
    simp [byteAt, store, outside]

end UserMemory

end Nucleus
