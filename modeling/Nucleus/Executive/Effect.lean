import Nucleus.Interrupt.Router
import Nucleus.Keyboard.Event
import Nucleus.Log
import Nucleus.Memory.UserMemory
import Nucleus.Screen.Drawing

/-!
The boundary between the executive and the devices.  A trap sees the devices
as `Readings` and answers with a list of effects, which the machine carries out
in order.
-/

namespace Nucleus

structure Readings where
  pending : Option Nat
  /-- Milliseconds since boot. -/
  now : Nat
  keys : List KeyEvent
  screenSize : Nat × Nat
  /-- Width and height of a character, by its scale. -/
  charSize : Nat → Nat × Nat
  memory : UserMemory

inductive Effect
  | acknowledge (interrupt : Nat)
  /-- Starts the next quantum. -/
  | rearmTick
  | armSleep (deadline : Nat)
  | disarmSleep
  | write (bytes : List UInt8)
  /-- Stores into the memory of a process. -/
  | store (address : Nat) (bytes : List UInt8)
  | draw (drawing : Drawing)
  | drainInput
  | call (hook : Hook)
  | report (record : Log.Record)
  /-- Stops the processor for good: a word cannot hold an address. -/
  | crash
  deriving DecidableEq, Repr

def Effect.crashIf (overflow : Bool) : List Effect :=
  if overflow then [crash] else []

@[simp] theorem Effect.crashIf_true : crashIf true = [crash] := rfl

@[simp] theorem Effect.crashIf_false : crashIf false = [] := rfl

end Nucleus
