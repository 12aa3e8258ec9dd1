import Nucleus.Keyboard.Event
import Nucleus.Syscall.Number
import Nucleus.Syscall.Pair
import Nucleus.Syscall.Status

namespace Nucleus

structure Invocation where
  call : Syscall
  arguments : List UInt64
  deriving DecidableEq, Repr

namespace Invocation

def heapAlloc (size : UInt64) : Invocation := ⟨.heapAlloc, [size]⟩

def heapFree (base : UInt64) : Invocation := ⟨.heapFree, [base]⟩

def print (address length : UInt64) : Invocation :=
  ⟨.print, [address, length]⟩

def readInput (address : UInt64) : Invocation := ⟨.readInput, [address]⟩

def clear (colour : UInt32) : Invocation := ⟨.clear, [colour.toUInt64]⟩

def drawPixel (x y colour : UInt32) : Invocation :=
  ⟨.drawPixel, [x.toUInt64, y.toUInt64, colour.toUInt64]⟩

def drawLine (x₀ y₀ x₁ y₁ colour : UInt32) : Invocation :=
  ⟨.drawLine, [x₀.toUInt64, y₀.toUInt64, x₁.toUInt64, y₁.toUInt64,
    colour.toUInt64]⟩

def fillRect (x y width height colour : UInt32) : Invocation :=
  ⟨.fillRect, [x.toUInt64, y.toUInt64, width.toUInt64, height.toUInt64,
    colour.toUInt64]⟩

def drawChar (x y : UInt32) (char : UInt8) (scale colour : UInt32) :
    Invocation :=
  ⟨.drawChar, [x.toUInt64, y.toUInt64, char.toUInt64, scale.toUInt64,
    colour.toUInt64]⟩

def drawString (x y : UInt32) (address length : UInt64)
    (scale colour : UInt32) : Invocation :=
  ⟨.drawString, [x.toUInt64, y.toUInt64, address, length, scale.toUInt64,
    colour.toUInt64]⟩

def screenSize : Invocation := ⟨.screenSize, []⟩

def charSize (scale : UInt32) : Invocation := ⟨.charSize, [scale.toUInt64]⟩

def sleep (milliseconds : UInt64) : Invocation := ⟨.sleep, [milliseconds]⟩

def yield : Invocation := ⟨.yield, []⟩

def uptime : Invocation := ⟨.uptime, []⟩

def stop : Invocation := ⟨.stop, []⟩

/-- The arguments that do not depend on where the process lies. -/
def portable (invocation : Invocation) : List UInt64 :=
  match invocation.call with
  | .print => invocation.arguments.drop 1
  | .readInput => []
  | .drawString => invocation.arguments.eraseIdx 2
  | _ => invocation.arguments

end Invocation

namespace Reply

def heap? (value : UInt64) : Option UInt64 :=
  if value = 0 then none else some value

def status (value : UInt64) : Except SyscallStatus Int :=
  SyscallStatus.check value.toInt64.toInt

def size (value : UInt64) : UInt32 × UInt32 :=
  Pair.unpack value

/-- The event found at the address that was passed, if one was taken. -/
def event? (value : UInt64) (stored : List UInt8) : Option KeyEvent :=
  if value = 1 then KeyEvent.ofBytes? stored else none

end Reply

end Nucleus
