import Nucleus.Keyboard.Ring
import Nucleus.Memory.Region
import Nucleus.Process.Name
import Nucleus.Trap.Context

/-!
Processes.  A process owns its identity, the context it resumes with while it
is not running, its stack, the first of its heap regions and its pending input.
-/

namespace Nucleus

inductive ProcessState
  | stopped
  | ready
  | running
  | blocked
  deriving DecidableEq, Repr

namespace ProcessState

def all : List ProcessState :=
  [stopped, ready, running, blocked]

def name : ProcessState → String
  | stopped => "stopped"
  | ready => "ready"
  | running => "running"
  | blocked => "blocked"

def ofName? (name : String) : Option ProcessState :=
  all.find? fun state => state.name == name

end ProcessState

/-- The privilege a process runs with. -/
inductive ProcessMode
  | user
  | kernel
  deriving DecidableEq, Repr

namespace ProcessMode

def processorState : ProcessMode → ProcessorState
  | user => ProcessorState.user
  | kernel => ProcessorState.kernelThread

def name : ProcessMode → String
  | user => "User"
  | kernel => "Kernel"

end ProcessMode

structure Process where
  id : ProcessId
  context : Context
  state : ProcessState
  mode : ProcessMode
  stack : Option RegionHandle
  stackBase : Nat
  stackSize : Nat
  heapBase : Nat
  input : KeyRing
  focused : Bool
  name : ProcessName
  deriving DecidableEq, Repr

namespace Process

def vacant : Process where
  id := ProcessId.kernel
  context := Context.zero
  state := .stopped
  mode := .user
  stack := none
  stackBase := 0
  stackSize := 0
  heapBase := 0
  input := KeyRing.empty
  focused := false
  name := ProcessName.empty

def isLive (process : Process) : Bool :=
  process.state != .stopped

def isReady (process : Process) : Bool :=
  process.state == .ready

def isRunning (process : Process) : Bool :=
  process.state == .running

/-- One past the highest stack address. -/
def stackTop (process : Process) : Nat :=
  process.stackBase + process.stackSize

def setFocus (process : Process) (focused : Bool) : Process :=
  { process with focused := focused }

/-- The first heap region a process obtains becomes its heap base. -/
def adoptHeap (process : Process) (base : Nat) : Process :=
  if process.heapBase = 0 then { process with heapBase := base } else process

/-- Forgets the heap base once its region is gone. -/
def dropHeap (process : Process) (base : Nat) : Process :=
  if process.heapBase = base then { process with heapBase := 0 } else process

@[simp] theorem isLive_vacant : vacant.isLive = false := rfl

end Process

end Nucleus
