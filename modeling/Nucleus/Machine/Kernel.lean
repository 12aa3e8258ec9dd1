import Nucleus.Device.Platform
import Nucleus.Machine.Computer
import Nucleus.Machine.Diagnosis

/-!
The kernel: a computer with a board, and the latch that lets the first fatal
condition through.  A fatal trap dumps the registers into the log and shows its
report; then the processor halts.
-/

namespace Nucleus

structure Kernel where
  computer : Computer Board
  latch : HaltLatch

inductive Resumption
  | continues
  | halts
  deriving DecidableEq, Repr

namespace Kernel

def setComputer (kernel : Kernel) (computer : Computer Board) : Kernel :=
  { kernel with computer := computer }

def board (kernel : Kernel) : Board := kernel.computer.machine

def modifyBoard (kernel : Kernel) (change : Board → Board) : Kernel :=
  kernel.setComputer (kernel.computer.setMachine (change kernel.board))

/-- Reports a fatal condition; nothing is shown but the first. -/
def halt (kernel : Kernel) (report : FatalReport) : Kernel :=
  let rows := if kernel.latch.halted then [] else
    Registers.dump kernel.computer.frame
  let dumped := rows.foldl (fun computer pieces =>
    computer.report ⟨.error, Log.Target.trapEntry, pieces⟩) kernel.computer
  let (latch, shown) := kernel.latch.report report
  let board := shown.elim dumped.machine dumped.machine.showFatal
  ⟨dumped.setMachine board, latch⟩

private def conclude (kernel : Kernel)
    (outcome : Option FatalReport × Computer Board) : Resumption × Kernel :=
  match outcome with
  | (none, computer) => (.continues, kernel.setComputer computer)
  | (some report, computer) =>
      (.halts, (kernel.setComputer computer).halt report)

def onSynchronous (kernel : Kernel) : Resumption × Kernel :=
  kernel.conclude kernel.computer.synchronous

def onCall (kernel : Kernel) (number : UInt16) (arguments : List UInt64) :
    Resumption × Kernel :=
  kernel.conclude (kernel.computer.call number arguments)

def onInterrupt (kernel : Kernel) : Kernel :=
  kernel.setComputer kernel.computer.interrupt

/-- Raises an interrupt, if one is given, and takes what is pending. -/
def interrupt (kernel : Kernel) (interrupt : Option Nat) : Kernel :=
  (kernel.modifyBoard fun board =>
    interrupt.elim board board.raise).onInterrupt

/-- A fast interrupt or a system error is always fatal. -/
def onUnexpected (kernel : Kernel) (kind : FatalKind) :
    Resumption × Kernel :=
  (.halts, kernel.halt (FatalReport.ofFrame kind kernel.computer.frame))

end Kernel

inductive TrapEntry
  | synchronous
  | interrupt
  | fastInterrupt
  | systemError
  deriving DecidableEq, Repr

namespace TrapEntry

def name : TrapEntry → String
  | synchronous => "sync"
  | interrupt => "irq"
  | fastInterrupt => "fiq"
  | systemError => "serror"

def ofName? (name : String) : Option TrapEntry :=
  [synchronous, interrupt, fastInterrupt, systemError].find? fun entry =>
    entry.name == name

end TrapEntry

namespace Kernel

def enter (kernel : Kernel) : TrapEntry → Resumption × Kernel
  | .synchronous => kernel.onSynchronous
  | .interrupt => (.continues, kernel.onInterrupt)
  | .fastInterrupt => kernel.onUnexpected .fastInterrupt
  | .systemError => kernel.onUnexpected .systemError

def idleContext : Context :=
  Context.start 0x40000000 0x40100000 ProcessorState.kernelThread.raw 0

def memoryBase : Nat := 0x48000000

/-- Where a process lands that returns from its entry. -/
def exitLink : UInt64 := 0x40000200

def bootFramebuffer : Raster :=
  Raster.ofGeometry ⟨0x44000000, 320, 96, 1280, .blueFirst⟩

def bootBoard (memory : UserMemory) (attached : Bool) : Board :=
  let controller := (InterruptController.reset 1020).setUp Platform.qemuVirt
  { controller := controller.1
    serial := SerialPort.idle.setUp
    now := 0
    rearms := 0
    deadline := none
    memory := memory
    framebuffer := bootFramebuffer
    attached := attached
    threshold := none
    crashed := false }

/-- A kernel with a number of pages for its processes, fresh from boot. -/
def boot (pages : Nat) (memory : UserMemory) (attached : Bool) :
    Except MemoryError Kernel :=
  let computer := Computer.powerOn (bootBoard memory attached)
  (computer.configure
    { memoryBase := memoryBase
      memorySize := pages * pageSize
      lines := Platform.qemuVirt.lines
      idle := idleContext
      exitLink := exitLink }).map fun computer =>
    ⟨computer.setMachine computer.machine.clearRecord, HaltLatch.opened⟩

end Kernel

end Nucleus
