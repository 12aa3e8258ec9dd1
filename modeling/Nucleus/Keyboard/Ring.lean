import Nucleus.Keyboard.Event

/-!
The events a process has pending.  The ring is lossy: once it is full, a new
event takes the place of the oldest unread one.
-/

namespace Nucleus

structure KeyRing where
  slots : Vector KeyEvent 32
  reader : Nat
  writer : Nat
  length : Nat
  deriving DecidableEq, Repr

namespace KeyRing

def capacity : Nat := 32

def empty : KeyRing where
  slots := Vector.replicate 32 KeyEvent.empty
  reader := 0
  writer := 0
  length := 0

def isEmpty (ring : KeyRing) : Bool :=
  ring.length == 0

/-- Appends an event, and says whether an unread one was lost to it. -/
def push (ring : KeyRing) (event : KeyEvent) : KeyRing × Bool :=
  let written := { ring with
    slots := ring.slots.setIfInBounds ring.writer event
    writer := (ring.writer + 1) % capacity }
  if ring.length = capacity then
    ({ written with reader := (ring.reader + 1) % capacity }, true)
  else
    ({ written with length := ring.length + 1 }, false)

def pop? (ring : KeyRing) : Option (KeyEvent × KeyRing) :=
  if ring.length = 0 then none
  else
    some (ring.slots[ring.reader]?.getD KeyEvent.empty,
      { ring with
        reader := (ring.reader + 1) % capacity
        length := ring.length - 1 })

/-- The unread events, oldest first. -/
def toList (ring : KeyRing) : List KeyEvent :=
  (List.range ring.length).map fun offset =>
    ring.slots[(ring.reader + offset) % capacity]?.getD KeyEvent.empty

@[simp] theorem toList_empty : empty.toList = [] := rfl

@[simp] theorem length_toList (ring : KeyRing) :
    ring.toList.length = ring.length := by
  simp [toList]

end KeyRing

end Nucleus
