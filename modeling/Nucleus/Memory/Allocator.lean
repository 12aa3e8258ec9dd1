import Nucleus.Memory.Error
import Nucleus.Memory.PageMap
import Nucleus.Memory.Region
import Nucleus.Slots

/-!
The region allocator.  It carves regions of whole pages out of one window of
memory, first fit from the bottom, and keeps three views of the same facts in
step: the map of taken pages, the table of live regions, and the number of
pages still free.
-/

namespace Nucleus

structure Allocator where
  pages : PageMap
  slots : Vector RegionSlot 128
  windowBase : Nat
  totalPages : Nat
  freePages : Nat

namespace Allocator

/-- Without a window every request fails. -/
def empty : Allocator where
  pages := PageMap.empty
  slots := Vector.replicate 128 RegionSlot.empty
  windowBase := 0
  totalPages := 0
  freePages := 0

/-- Takes over a window; a trailing partial page is left out. -/
def ofWindow (base size : Nat) : Except MemoryError Allocator :=
  let pages := size / pageSize
  if base % pageSize ≠ 0 ∨ pages = 0 ∨ maxPages < pages then
    .error .invalidWindow
  else
    .ok { empty with
      windowBase := base
      totalPages := pages
      freePages := pages }

def windowSize (memory : Allocator) : Nat :=
  memory.totalPages * pageSize

/-- One past the last address of the window. -/
def windowStop (memory : Allocator) : Nat :=
  memory.windowBase + memory.windowSize

def inWindow (memory : Allocator) (address : Nat) : Bool :=
  memory.windowBase ≤ address && address < memory.windowStop

def pagesFor (size : Nat) : Nat :=
  (size + (pageSize - 1)) / pageSize

/-- The live region a handle names. -/
def region? (memory : Allocator) (handle : RegionHandle) : Option Region :=
  let slot := memory.slots[handle.slot]
  if slot.generation = handle.generation then slot.region else none

/-- Changes what a slot holds, together with the pages that go with it. -/
def occupy (memory : Allocator) (slot : Fin 128) (content : RegionSlot)
    (first pages : Nat) (taken : Bool) (freePages : Nat) : Allocator :=
  match memory with
  | ⟨map, slots, windowBase, totalPages, _⟩ =>
      ⟨map.mark first pages taken, Slots.write slots slot content, windowBase,
        totalPages, freePages⟩

/-- Where a region would lie: its slot, its first page and its length. -/
structure Placement where
  slot : Fin 128
  first : Nat
  pages : Nat
  deriving DecidableEq, Repr

def place? (memory : Allocator) (size : Nat) :
    Except MemoryError Placement :=
  let pages := pagesFor size
  if size = 0 then .error .zeroSize
  else if memory.freePages < pages then .error .exhausted
  else
    match Slots.first? memory.slots RegionSlot.isVacant with
    | none => .error .tooManyRegions
    | some slot =>
        match memory.pages.firstRun? memory.totalPages pages with
        | none => .error .exhausted
        | some first => .ok ⟨slot, first, pages⟩

structure Grant where
  handle : RegionHandle
  region : Region
  memory : Allocator

def grant (memory : Allocator) (placement : Placement)
    (owner : ProcessId) : Grant :=
  let region : Region :=
    { base := memory.windowBase + placement.first * pageSize
      length := placement.pages * pageSize
      owner := owner }
  let generation := memory.slots[placement.slot].generation
  let freePages := memory.freePages - placement.pages
  { handle := ⟨placement.slot, generation⟩
    region := region
    memory := memory.occupy placement.slot ⟨some region, generation⟩
      placement.first placement.pages true freePages }

def allocate (memory : Allocator) (size : Nat) (owner : ProcessId) :
    Except MemoryError Grant :=
  match memory.place? size with
  | .error error => .error error
  | .ok placement => .ok (memory.grant placement owner)

/-- Vacates a slot and spends the handles to what it held. -/
def vacate (memory : Allocator) (slot : Fin 128) : Allocator :=
  match memory.slots[slot].region with
  | none => memory
  | some region =>
      let first := (region.base - memory.windowBase) / pageSize
      let pages := region.length / pageSize
      let generation := memory.slots[slot].generation + 1
      let freePages := memory.freePages + pages
      memory.occupy slot ⟨none, generation⟩ first pages false freePages

def release (memory : Allocator) (handle : RegionHandle)
    (owner : ProcessId) : Except MemoryError Allocator :=
  let slot := memory.slots[handle.slot]
  if slot.generation ≠ handle.generation then .error .alreadyReleased
  else
    match slot.region with
    | none => .error .alreadyReleased
    | some region =>
        if region.owner ≠ owner then .error .notOwner
        else .ok (memory.vacate handle.slot)

def slotAt? (memory : Allocator) (base : Nat) : Option (Fin 128) :=
  Slots.first? memory.slots (·.startsAt base)

/-- The live region that starts at an address, with its handle. -/
def find? (memory : Allocator) (base : Nat) :
    Option (RegionHandle × Region) := do
  let slot ← memory.slotAt? base
  let region ← memory.slots[slot].region
  some (⟨slot, memory.slots[slot].generation⟩, region)

/-- Gives back the region that starts at an address.  A page of the window
where none starts counts as already released, any other address as unknown. -/
def releaseAt (memory : Allocator) (base : Nat) (owner : ProcessId) :
    Except MemoryError Allocator :=
  match memory.find? base with
  | some (handle, _) => memory.release handle owner
  | none =>
      if memory.inWindow base ∧ base % pageSize = 0 then
        .error .alreadyReleased
      else
        .error .unknownRegion

def slotsOwnedBy (memory : Allocator) (owner : ProcessId) : List (Fin 128) :=
  Slots.all memory.slots (·.isOwnedBy owner)

/-- Gives back everything a process owns, and counts the regions. -/
def releaseOwnedBy (memory : Allocator) (owner : ProcessId) :
    Allocator × Nat :=
  let owned := memory.slotsOwnedBy owner
  (owned.foldl vacate memory, owned.length)

def ownedBy (memory : Allocator) (owner : ProcessId) : List Region :=
  (memory.slotsOwnedBy owner).filterMap fun slot => memory.slots[slot].region

/-! Overflow.  The allocator trusts its window to lie below the largest word.
These are the sums that a window at the very top can make too large. -/

def Grant.overflows (grant : Grant) : Bool :=
  overflowsWord grant.region.base

/-- The end of the window, which is formed for every address from its base on
that starts no live region. -/
def releaseOverflows (memory : Allocator) (base : Nat) : Bool :=
  (memory.find? base).isNone && decide (memory.windowBase ≤ base) &&
    overflowsWord memory.windowStop

end Allocator

end Nucleus
