import Nucleus.Process.Table

/-!
Soak runs: the same operation over and over, until it fails or has been done
often enough.  An overflow leaves nothing behind.
-/

namespace Nucleus

namespace Allocator

/-- Allocates and gives back at once, and counts how often it went well. -/
def churn? (memory : Allocator) (size : Nat) (owner : ProcessId) :
    Nat → Option (Nat × Allocator)
  | 0 => some (0, memory)
  | times + 1 =>
      match memory.place? size with
      | .error _ => some (0, memory)
      | .ok placement =>
          let grant := memory.grant placement owner
          if grant.overflows then none
          else
            ((grant.memory.vacate placement.slot).churn? size owner times).map
              fun (done, last) => (done + 1, last)

def reserve? (memory : Allocator) (size : Nat) (owner : ProcessId) :
    Nat → Option (List RegionHandle × Option MemoryError × Allocator)
  | 0 => some ([], none, memory)
  | times + 1 =>
      match memory.place? size with
      | .error error => some ([], some error, memory)
      | .ok placement =>
          let grant := memory.grant placement owner
          if grant.overflows then none
          else
            (grant.memory.reserve? size owner times).map
              fun (handles, refusal, last) =>
                (grant.handle :: handles, refusal, last)

end Allocator

namespace ProcessTable

def smallest : SpawnRequest where
  entry := 0
  stackSize := 1
  mode := .user
  name := "churn"
  exitLink := 0

def churn? (table : ProcessTable) (memory : Allocator)
    (last : Option ProcessId) :
    Nat → Option
      (Except ProcessError (Option ProcessId) × ProcessTable × Allocator)
  | 0 => some (.ok last, table, memory)
  | times + 1 =>
      let created := table.create memory smallest
      if created.overflows then none
      else
        match created.outcome with
        | .error error => some (.error error, created.table, created.memory)
        | .ok (id, slot) =>
            let ended := created.table.clearSlot created.memory slot
            ended.table.churn? ended.memory (some id) times

end ProcessTable

namespace KeyRing

def pressAll (ring : KeyRing) (first : Nat) : Nat → Nat × KeyRing
  | 0 => (0, ring)
  | times + 1 =>
      let (pressed, lost) := ring.push (.press 0 (UInt8.ofNat first))
      let (others, last) := pressed.pressAll (first + 1) times
      (lost.toNat + others, last)

def popAll (ring : KeyRing) : Nat → List KeyEvent × KeyRing
  | 0 => ([], ring)
  | times + 1 =>
      match ring.pop? with
      | none => ([], ring)
      | some (event, rest) =>
          let (events, last) := rest.popAll times
          (event :: events, last)

end KeyRing

end Nucleus
