import Nucleus.Process.Id
import Nucleus.Word

namespace Nucleus

def pageSize : Nat := 4096

structure Region where
  base : Nat
  length : Nat
  owner : ProcessId
  deriving DecidableEq, Repr

namespace Region

/-- One past the last address. -/
def stop (region : Region) : Nat :=
  region.base + region.length

def contains (region : Region) (address : Nat) : Bool :=
  region.base ≤ address && address < region.stop

/-- No address is left for the end of the region. -/
def overflows (region : Region) : Bool :=
  overflowsWord region.stop

end Region

/-- Names a live region: the slot that holds it, and how often that slot had
been released when the region was made.  Releasing the region spends every
copy of its handle. -/
structure RegionHandle where
  slot : Fin 128
  generation : UInt16
  deriving DecidableEq, Repr

structure RegionSlot where
  region : Option Region
  generation : UInt16
  deriving DecidableEq, Repr

namespace RegionSlot

def empty : RegionSlot := ⟨none, 0⟩

def isVacant (slot : RegionSlot) : Bool :=
  slot.region.isNone

def isOwnedBy (slot : RegionSlot) (owner : ProcessId) : Bool :=
  match slot.region with
  | some region => region.owner = owner
  | none => false

def startsAt (slot : RegionSlot) (base : Nat) : Bool :=
  match slot.region with
  | some region => region.base = base
  | none => false

end RegionSlot

end Nucleus
