import Nucleus.Text.Message
import Nucleus.Text.Numeral
import Nucleus.Trap.Context

/-!
Fatal conditions.  The first report closes the latch and is shown; whatever is
reported later is shown to nobody.
-/

namespace Nucleus

inductive FatalKind
  | unknownSyscall (number : UInt16)
  | unexpectedException (exceptionClass : UInt8)
  | badUserMemory (address length : Nat)
  | noCurrentProcess
  | fastInterrupt
  | systemError
  | kernelPanic
  deriving DecidableEq, Repr

namespace FatalKind

/-- The stable number shown beside a report. -/
def code : FatalKind → Nat
  | unknownSyscall _ => 1
  | unexpectedException _ => 2
  | badUserMemory _ _ => 3
  | noCurrentProcess => 4
  | fastInterrupt => 5
  | systemError => 6
  | kernelPanic => 7

/-- A name for each kind, and the numbers that go with it. -/
def name : FatalKind → String
  | unknownSyscall _ => "UnknownSyscall"
  | unexpectedException _ => "UnexpectedException"
  | badUserMemory _ _ => "BadUserMemory"
  | noCurrentProcess => "NoCurrentProcess"
  | fastInterrupt => "Fiq"
  | systemError => "SError"
  | kernelPanic => "KernelPanic"

def parameters : FatalKind → List Nat
  | unknownSyscall number => [number.toNat]
  | unexpectedException exceptionClass => [exceptionClass.toNat]
  | badUserMemory address length => [address, length]
  | noCurrentProcess => []
  | fastInterrupt => []
  | systemError => []
  | kernelPanic => []

def ofName? (name : String) (parameters : List Nat) : Option FatalKind :=
  let first := parameters.headD 0
  let second := parameters.tail.headD 0
  [unknownSyscall (UInt16.ofNat first),
    unexpectedException (UInt8.ofNat first), badUserMemory first second,
    noCurrentProcess, fastInterrupt, systemError,
    kernelPanic].find? fun kind => kind.name == name

def pieces : FatalKind → List String
  | unknownSyscall number =>
      ["unknown syscall ", Numeral.decimal number.toNat]
  | unexpectedException exceptionClass =>
      ["unexpected exception: ", ExceptionClass.name exceptionClass]
  | badUserMemory address length =>
      ["bad user memory ", Numeral.hex address, "+", Numeral.decimal length]
  | noCurrentProcess => ["trap with no current process"]
  | fastInterrupt => ["unexpected FIQ"]
  | systemError => ["SError"]
  | kernelPanic => ["kernel panic"]

def text (kind : FatalKind) : String :=
  String.join kind.pieces

theorem ofName?_name (kind : FatalKind) :
    ofName? kind.name kind.parameters = some kind := by
  cases kind <;> simp [ofName?, name, parameters]

end FatalKind

/-- The cause of a fatal trap, with the registers that locate it. -/
structure FatalReport where
  kind : FatalKind
  syndrome : UInt64
  address : UInt64
  faultAddress : UInt64
  deriving DecidableEq, Repr

namespace FatalReport

def ofFrame (kind : FatalKind) (frame : Frame) : FatalReport where
  kind := kind
  syndrome := frame.syndrome.raw
  address := frame.context.programCounter
  faultAddress := frame.faultAddress

def code (report : FatalReport) : Nat :=
  report.kind.code

def pieces (report : FatalReport) : List String :=
  report.kind.pieces ++
    [" (ESR=", Numeral.paddedHex 16 report.syndrome.toNat,
      " ELR=", Numeral.paddedHex 16 report.address.toNat,
      " FAR=", Numeral.paddedHex 16 report.faultAddress.toNat, ")"]

def text (report : FatalReport) : String :=
  String.join report.pieces

end FatalReport

structure FatalDisplay where
  message : String
  code : Nat
  deriving DecidableEq, Repr

/-- Open until something is shown. -/
structure HaltLatch where
  halted : Bool
  deriving DecidableEq, Repr

namespace HaltLatch

def messageCapacity : Nat := 256

def opened : HaltLatch := ⟨false⟩

/-- Closes the latch; only the call that closes it shows its message. -/
def render (latch : HaltLatch) (pieces : List String) (code : Nat) :
    HaltLatch × Option FatalDisplay :=
  if latch.halted then (latch, none)
  else
    let message : Message messageCapacity := Message.ofPieces pieces
    (⟨true⟩, some ⟨message.text, code⟩)

def report (latch : HaltLatch) (report : FatalReport) :
    HaltLatch × Option FatalDisplay :=
  latch.render report.pieces report.code

@[simp] theorem halted_render (latch : HaltLatch) (pieces : List String)
    (code : Nat) : (latch.render pieces code).1.halted = true := by
  unfold render
  split <;> simp_all

end HaltLatch

end Nucleus
