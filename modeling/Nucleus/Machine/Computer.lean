import Nucleus.Executive.Trap
import Nucleus.Machine.Hardware

namespace Nucleus

structure Computer (Machine : Type) where
  exec : Executive
  frame : Frame
  machine : Machine

namespace Computer

variable {Machine : Type} [Hardware Machine]

def powerOn (machine : Machine) : Computer Machine :=
  ⟨Executive.initial, Frame.zero, machine⟩

/-- Takes over what an operation left of the executive, and carries out the
effects. -/
def adopt (computer : Computer Machine) (exec : Executive)
    (effects : List Effect) : Computer Machine :=
  { computer with
    exec := exec
    machine := Hardware.performAll computer.machine effects }

def setFrame (computer : Computer Machine) (frame : Frame) :
    Computer Machine :=
  { computer with frame := frame }

def setMachine (computer : Computer Machine) (machine : Machine) :
    Computer Machine :=
  { computer with machine := machine }

def report (computer : Computer Machine) (record : Log.Record) :
    Computer Machine :=
  computer.adopt computer.exec [.report record]

def configure (computer : Computer Machine) (config : Configuration) :
    Except MemoryError (Computer Machine) :=
  (computer.exec.configure config).map fun (exec, effects) =>
    computer.adopt exec effects

def install (computer : Computer Machine) (line : DeviceLine) (hook : Hook) :
    Computer Machine :=
  let (exec, effects) := computer.exec.install line hook
  computer.adopt exec effects

def spawn (computer : Computer Machine) (entry : UInt64) (stackSize : Nat)
    (mode : ProcessMode) (name : String) :
    Except ProcessError ProcessId × Computer Machine :=
  let spawning := computer.exec.spawn entry stackSize mode name
  (spawning.outcome, computer.adopt spawning.exec spawning.effects)

def terminate (computer : Computer Machine) (id : ProcessId) :
    Except ProcessError (Computer Machine) :=
  (computer.exec.terminate id).map fun (exec, effects) =>
    computer.adopt exec effects

def focus (computer : Computer Machine) (id : ProcessId) :
    Except ProcessError (Computer Machine) :=
  (computer.exec.focus id).map fun exec => computer.adopt exec []

def deliver (computer : Computer Machine) (event : KeyEvent) :
    Computer Machine :=
  let (exec, effects) := computer.exec.deliver event
  computer.adopt exec effects

/-- Starts the executive; the processor goes on with the context it picks. -/
def start (computer : Computer Machine) : Computer Machine :=
  let (exec, effects) := computer.exec.start
  (computer.adopt exec effects).setFrame (Frame.ofContext exec.nextContext)

def interrupt (computer : Computer Machine) : Computer Machine :=
  let (pending, machine) := Hardware.claim computer.machine
  let trap := computer.exec.handleInterrupt computer.frame
    (Hardware.readings machine pending)
  ((computer.setMachine machine).adopt trap.exec trap.effects).setFrame
    trap.frame

def synchronous (computer : Computer Machine) :
    Option FatalReport × Computer Machine :=
  let trap := computer.exec.handleSynchronous computer.frame
    (Hardware.readings computer.machine none)
  (trap.fatal, (computer.adopt trap.exec trap.effects).setFrame trap.frame)

/-- The frame of a trap with a syndrome and a fault address. -/
def trapped (computer : Computer Machine) (syndrome faultAddress : UInt64) :
    Computer Machine :=
  computer.setFrame ⟨computer.frame.context, ⟨syndrome⟩, faultAddress⟩

/-- The running code makes a supervisor call and goes on behind it. -/
def call (computer : Computer Machine) (number : UInt16)
    (arguments : List UInt64) : Option FatalReport × Computer Machine :=
  let context := computer.frame.context.setArguments arguments
  let frame : Frame :=
    { computer.frame with
      context := { context with programCounter := context.programCounter + 4 }
      syndrome := Syndrome.ofCall number }
  (computer.setFrame frame).synchronous

end Computer

end Nucleus
