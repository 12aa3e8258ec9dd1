import Nucleus.Slots
import Nucleus.Text.Numeral
import Nucleus.Trap.ProcessorState
import Nucleus.Trap.Syndrome

/-!
What a trap saves.  A `Context` is everything needed to resume an interrupted
flow of control; a `Frame` is the context that the trap interrupted, together
with the two registers that describe the trap itself.  Whatever context the
frame holds when the trap ends is what runs next.
-/

namespace Nucleus

structure Context where
  registers : Vector UInt64 31
  stackPointer : UInt64
  programCounter : UInt64
  processorState : UInt64
  deriving DecidableEq, Repr

namespace Context

def zero : Context where
  registers := Vector.replicate 31 0
  stackPointer := 0
  programCounter := 0
  processorState := 0

/-- Starts at `entry` on `stackTop`; returning from there lands at `link`. -/
def start (entry stackTop processorState link : UInt64) : Context where
  registers := (Vector.replicate 31 0).set 30 link
  stackPointer := stackTop
  programCounter := entry
  processorState := processorState

/-- Arguments are counted from zero. -/
instance firstArgument : @NeZero Nat Zero.ofOfNat0 6 := ⟨by decide⟩

/-- A system call passes its arguments in the first six registers. -/
def argument (context : Context) (index : Fin 6) : UInt64 :=
  context.registers[index.val]

def setResult (context : Context) (value : UInt64) : Context :=
  { context with registers := context.registers.set 0 value }

def result (context : Context) : UInt64 :=
  context.registers[0]

def setArguments (context : Context) (arguments : List UInt64) : Context :=
  { context with registers := Vector.ofFn fun index : Fin 31 =>
      arguments[index.val]?.getD context.registers[index] }

@[simp] theorem result_setResult (context : Context) (value : UInt64) :
    (context.setResult value).result = value := by
  simp [result, setResult]

end Context

structure Frame where
  context : Context
  syndrome : Syndrome
  faultAddress : UInt64
  deriving DecidableEq, Repr

namespace Frame

def zero : Frame := ⟨Context.zero, ⟨0⟩, 0⟩

def ofContext (context : Context) : Frame := ⟨context, ⟨0⟩, 0⟩

def registerNames : List String :=
  (List.range 31).map fun index => "x" ++ Numeral.decimal index

def setRegister? (frame : Frame) (name : String) (value : UInt64) :
    Option Frame :=
  let context := frame.context
  match name with
  | "sp" =>
      some { frame with context := { context with stackPointer := value } }
  | "elr" =>
      some { frame with context := { context with programCounter := value } }
  | "spsr" =>
      some { frame with context := { context with processorState := value } }
  | "far" => some { frame with faultAddress := value }
  | name =>
      (registerNames.findIdx? (· == name)).map fun index =>
        { frame with context := { context with
          registers := context.registers.setIfInBounds index value } }

/-- Makes a context the one that runs after the trap. -/
def resume (frame : Frame) (context : Context) : Frame :=
  { frame with context := context }

@[simp] theorem context_resume (frame : Frame) (context : Context) :
    (frame.resume context).context = context := rfl

end Frame

end Nucleus
