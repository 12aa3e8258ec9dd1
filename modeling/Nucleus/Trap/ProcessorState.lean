namespace Nucleus

structure ProcessorState where
  raw : UInt64
  deriving DecidableEq, Repr

namespace ProcessorState

/-- Exception level 0 with every interrupt unmasked. -/
def user : ProcessorState := ⟨0⟩

/-- Exception level 1 on the process's own stack, every interrupt unmasked. -/
def kernelThread : ProcessorState := ⟨4⟩

private def bit (state : ProcessorState) (index : UInt64) : Bool :=
  (state.raw >>> index) &&& 1 != 0

def debugMasked (state : ProcessorState) : Bool := state.bit 9

def errorMasked (state : ProcessorState) : Bool := state.bit 8

def interruptMasked (state : ProcessorState) : Bool := state.bit 7

def fastInterruptMasked (state : ProcessorState) : Bool := state.bit 6

def level (state : ProcessorState) : Nat :=
  ((state.raw >>> 2) &&& 3).toNat

def ownStack (state : ProcessorState) : Bool := state.bit 0

def is32Bit (state : ProcessorState) : Bool := state.bit 4

def levelName (state : ProcessorState) : String :=
  if state.is32Bit then "AArch32"
  else
    match state.level, state.ownStack with
    | 0, _ => "EL0t"
    | 1, false => "EL1t"
    | 1, true => "EL1h"
    | 2, false => "EL2t"
    | 2, true => "EL2h"
    | 3, false => "EL3t"
    | 3, true => "EL3h"
    | _, _ => "Unknown"

end ProcessorState

end Nucleus
