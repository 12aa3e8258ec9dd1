/-!
The exception syndrome register: why the processor trapped.  The class sits in
bits 31 to 26, the instruction length in bit 25, and what the rest means
depends on the class.
-/

namespace Nucleus

structure Syndrome where
  raw : UInt64
  deriving DecidableEq, Repr

namespace Syndrome

def exceptionClass (syndrome : Syndrome) : UInt8 :=
  ((syndrome.raw >>> 26) &&& 0x3f).toUInt8

def isWide (syndrome : Syndrome) : Bool :=
  (syndrome.raw >>> 25) &&& 1 != 0

def specific (syndrome : Syndrome) : UInt32 :=
  (syndrome.raw &&& 0x1ffffff).toUInt32

end Syndrome

namespace ExceptionClass

/-- The class of a supervisor call from 64-bit code. -/
def supervisorCall : UInt8 := 0x15

def name (exceptionClass : UInt8) : String :=
  match exceptionClass.toNat with
  | 0x00 => "Unknown"
  | 0x01 => "WFI/WFE trapped"
  | 0x07 => "SVE/SIMD/FP access"
  | 0x0e => "Illegal execution state"
  | 0x11 => "SVC (AArch32)"
  | 0x15 => "SVC (AArch64)"
  | 0x16 => "HVC (AArch64)"
  | 0x17 => "SMC (AArch64)"
  | 0x18 => "MSR/MRS/SYS trapped"
  | 0x20 => "Instruction abort (lower EL)"
  | 0x21 => "Instruction abort (same EL)"
  | 0x22 => "PC alignment fault"
  | 0x24 => "Data abort (lower EL)"
  | 0x25 => "Data abort (same EL)"
  | 0x26 => "SP alignment fault"
  | 0x2c => "FP exception (AArch64)"
  | 0x2f => "SError"
  | 0x30 => "Breakpoint (lower EL)"
  | 0x31 => "Breakpoint (same EL)"
  | 0x32 => "Software step (lower EL)"
  | 0x33 => "Software step (same EL)"
  | 0x34 => "Watchpoint (lower EL)"
  | 0x35 => "Watchpoint (same EL)"
  | 0x3c => "BRK (AArch64)"
  | _ => "Reserved/Unknown"

/-- Instruction and data aborts, from either level. -/
def isAbort (exceptionClass : UInt8) : Bool :=
  exceptionClass == 0x20 || exceptionClass == 0x21 ||
    exceptionClass == 0x24 || exceptionClass == 0x25

end ExceptionClass

namespace Syndrome

/-- The immediate of the supervisor call that trapped, if one did. -/
def callNumber? (syndrome : Syndrome) : Option UInt16 :=
  if syndrome.exceptionClass = ExceptionClass.supervisorCall then
    some (syndrome.specific &&& 0xffff).toUInt16
  else
    none

def ofCall (number : UInt16) : Syndrome :=
  ⟨(ExceptionClass.supervisorCall.toUInt64 <<< 26) ||| 0x2000000 |||
    number.toUInt64⟩

def faultStatus (syndrome : Syndrome) : UInt8 :=
  (syndrome.specific &&& 0x3f).toUInt8

def isWrite (syndrome : Syndrome) : Bool :=
  (syndrome.specific >>> 6) &&& 1 != 0

/-- The fault address register does not hold the faulting address. -/
def addressInvalid (syndrome : Syndrome) : Bool :=
  (syndrome.specific >>> 10) &&& 1 != 0

end Syndrome

/-- The fault a status code stands for; the low two bits of the level-indexed
kinds carry the translation level. -/
def FaultStatus.name (status : UInt8) : String :=
  if status ≤ 0x03 then "Address size fault"
  else if status ≤ 0x07 then "Translation fault"
  else if status ≤ 0x0b then "Access flag fault"
  else if status ≤ 0x0f then "Permission fault"
  else if status = 0x10 ∨ (0x14 ≤ status ∧ status ≤ 0x17) then
    "Synchronous external abort"
  else if status = 0x18 ∨ (0x1c ≤ status ∧ status ≤ 0x1f) then
    "Synchronous parity/ECC error"
  else if status = 0x21 then "Alignment fault"
  else if status = 0x30 then "TLB conflict abort"
  else "Unknown/Reserved fault"

end Nucleus
