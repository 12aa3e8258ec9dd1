import Nucleus.Process.Id

/-!
Processes waiting for the clock, one entry each, in a binary heap: no entry
comes before its parent.  Earlier deadlines come first, equal ones by
identifier.
-/

namespace Nucleus

structure Sleeper where
  deadline : Nat
  id : ProcessId
  deriving DecidableEq, Repr

namespace Sleeper

def isBefore (first second : Sleeper) : Bool :=
  first.deadline < second.deadline ||
    (first.deadline == second.deadline && first.id.raw < second.id.raw)

end Sleeper

structure DeadlineQueue where
  entries : Array Sleeper
  deriving DecidableEq, Repr

namespace DeadlineQueue

def capacity : Nat := 16

def empty : DeadlineQueue := ⟨#[]⟩

def length (queue : DeadlineQueue) : Nat :=
  queue.entries.size

def isEmpty (queue : DeadlineQueue) : Bool :=
  queue.entries.isEmpty

def toList (queue : DeadlineQueue) : List Sleeper :=
  queue.entries.toList

/-! Restoring the heap around one entry that may be out of place. -/

/-- Moves the entry at `index` up while it comes before its parent. -/
def siftUp (entries : Array Sleeper) (index : Nat) : Array Sleeper :=
  if inside : 0 < index ∧ index < entries.size then
    let parent := (index - 1) / 2
    if entries[index].isBefore entries[parent] then
      siftUp (entries.swap index parent) parent
    else
      entries
  else
    entries
termination_by index
decreasing_by omega

/-- The child of `index` that comes first, unless `index` comes before it. -/
def earlierChild? (entries : Array Sleeper) (index : Nat)
    (inside : index < entries.size) : Option (Fin entries.size) :=
  let least : Fin entries.size := ⟨index, inside⟩
  let least :=
    if left : 2 * index + 1 < entries.size then
      if entries[2 * index + 1].isBefore entries[least] then
        ⟨2 * index + 1, left⟩
      else least
    else least
  let least :=
    if right : 2 * index + 2 < entries.size then
      if entries[2 * index + 2].isBefore entries[least] then
        ⟨2 * index + 2, right⟩
      else least
    else least
  if least.val = index then none else some least

theorem lt_earlierChild {entries : Array Sleeper} {index : Nat}
    {inside : index < entries.size} {child : Fin entries.size}
    (found : earlierChild? entries index inside = some child) :
    index < child.val := by
  unfold earlierChild? at found
  grind

/-- Moves the entry at `index` down while a child comes before it. -/
def siftDown (entries : Array Sleeper) (index : Nat) : Array Sleeper :=
  if inside : index < entries.size then
    match found : earlierChild? entries index inside with
    | some child => siftDown (entries.swap index child) child
    | none => entries
  else
    entries
termination_by entries.size - index
decreasing_by
  have below := lt_earlierChild found
  simp only [Array.size_swap]
  omega

/-- The last entry in the place of another one, and one place fewer. -/
def fillGap (entries : Array Sleeper) (index : Nat)
    (inside : index + 1 < entries.size) : Array Sleeper :=
  (entries.set index (entries[entries.size - 1]) (by omega)).pop

def removeAt (entries : Array Sleeper) (index : Nat) : Array Sleeper :=
  if inside : index + 1 < entries.size then
    siftUp (siftDown (fillGap entries index inside) index) index
  else
    entries.pop

def erase (queue : DeadlineQueue) (id : ProcessId) : DeadlineQueue :=
  match queue.entries.findFinIdx? fun sleeper => sleeper.id == id with
  | some index => ⟨removeAt queue.entries index⟩
  | none => queue

def contains (queue : DeadlineQueue) (id : ProcessId) : Bool :=
  queue.entries.any fun sleeper => sleeper.id == id

/-- Queues a process, in place of any earlier entry; refused when as many
others are queued as the queue can hold. -/
def insert? (queue : DeadlineQueue) (id : ProcessId) (deadline : Nat) :
    Option DeadlineQueue :=
  let others := queue.erase id
  if others.length = capacity then none
  else
    some ⟨siftUp (others.entries.push ⟨deadline, id⟩) others.length⟩

def next? (queue : DeadlineQueue) : Option Nat :=
  queue.entries[0]?.map (·.deadline)

/-- Takes the first entry if its deadline has come. -/
def popExpired? (queue : DeadlineQueue) (now : Nat) :
    Option (Sleeper × DeadlineQueue) :=
  match queue.entries[0]? with
  | some first =>
      if first.deadline ≤ now then
        some (first, ⟨removeAt queue.entries 0⟩)
      else none
  | none => none

def takeExpired (queue : DeadlineQueue) (now : Nat) :
    Nat → List ProcessId × DeadlineQueue
  | 0 => ([], queue)
  | limit + 1 =>
      match queue.popExpired? now with
      | some (sleeper, rest) =>
          let (ids, left) := takeExpired rest now limit
          (sleeper.id :: ids, left)
      | none => ([], queue)

def drainExpired (queue : DeadlineQueue) (now : Nat) :
    List ProcessId × DeadlineQueue :=
  queue.takeExpired now queue.length

end DeadlineQueue

end Nucleus
