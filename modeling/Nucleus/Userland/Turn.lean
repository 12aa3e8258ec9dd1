import Nucleus.Memory.UserMemory
import Nucleus.Syscall.Invocation
import Nucleus.Text.Message

/-!
Programs of processes.  A program runs in turns: it takes the value that its
last call returned, works on its own memory, and makes its next call.
-/

namespace Nucleus

structure Workspace where
  reply : UInt64
  memory : UserMemory
  stackPointer : Nat

/-- What a program leaves behind for the kernel: its memory, its next call, and
where it goes on afterwards. -/
structure Turn (Stage : Type) where
  memory : UserMemory
  invocation : Invocation
  next : Stage

namespace Turn

def map {Stage Other : Type} (turn : Turn Stage) (change : Stage → Other) :
    Turn Other :=
  ⟨turn.memory, turn.invocation, change turn.next⟩

end Turn

namespace Workspace

variable {Stage : Type}

def call (space : Workspace) (invocation : Invocation) (next : Stage) :
    Turn Stage :=
  ⟨space.memory, invocation, next⟩

/-- Where a program keeps a text or an event while a call looks at it: at the
end of its stack. -/
def buffer (space : Workspace) : Nat :=
  space.stackPointer - 256

def callWith (space : Workspace) (bytes : List UInt8)
    (invocation : UInt64 → UInt64 → Invocation) (next : Stage) :
    Turn Stage :=
  ⟨space.memory.store space.buffer bytes,
    invocation (UInt64.ofNat space.buffer) (UInt64.ofNat bytes.length), next⟩

def print (space : Workspace) (text : List UInt8) (next : Stage) :
    Turn Stage :=
  space.callWith text Invocation.print next

/-- Prints a line, which is put together in a buffer of 96 bytes. -/
def say (space : Workspace) (pieces : List String) (next : Stage) :
    Turn Stage :=
  let line : Message 96 := Message.ofPieces (pieces ++ ["\n"])
  space.print line.bytes next

def readInput (space : Workspace) (next : Stage) : Turn Stage :=
  space.call (.readInput (UInt64.ofNat space.buffer)) next

def event? (space : Workspace) : Option KeyEvent :=
  Reply.event? space.reply (space.memory.bytesAt space.buffer 8)

end Workspace

end Nucleus
