import Nucleus.Text.Numeral

namespace Nucleus

structure Access where
  /-- The block of registers, for a device with more than one. -/
  block : String
  isWrite : Bool
  offset : Nat
  value : UInt32
  deriving DecidableEq, Repr

private def bareHex (number : Nat) : String :=
  String.ofList (Numeral.digits 16 number)

def Access.text (access : Access) : String :=
  String.join
    [access.block, if access.isWrite then "w" else "r", bareHex access.offset,
      "=", bareHex access.value.toNat]

/-- The accesses so far, the last one first. -/
structure Trace where
  accesses : List Access
  deriving DecidableEq, Repr

namespace Trace

def empty : Trace := ⟨[]⟩

def read (trace : Trace) (block : String) (offset : Nat)
    (value : UInt32) : Trace :=
  ⟨⟨block, false, offset, value⟩ :: trace.accesses⟩

def write (trace : Trace) (block : String) (offset : Nat)
    (value : UInt32) : Trace :=
  ⟨⟨block, true, offset, value⟩ :: trace.accesses⟩

def toList (trace : Trace) : List Access :=
  trace.accesses.reverse

def written (trace : Trace) (block : String) (offset : Nat) : List UInt32 :=
  trace.toList.filterMap fun access =>
    if access.isWrite ∧ access.block = block ∧ access.offset = offset then
      some access.value
    else none

private def runText : List Access → String
  | [] => ""
  | [access] => access.text
  | access :: others =>
      access.text ++ "*" ++ Numeral.decimal (others.length + 1)

/-- One word an access; a repeated one is written once, with its count. -/
def text (trace : Trace) : String :=
  String.intercalate " "
    ((trace.toList.splitBy (· == ·)).map runText)

@[simp] theorem toList_read (trace : Trace) (block : String) (offset : Nat)
    (value : UInt32) :
    (trace.read block offset value).toList =
      trace.toList ++ [⟨block, false, offset, value⟩] := by
  simp [toList, read]

@[simp] theorem toList_write (trace : Trace) (block : String) (offset : Nat)
    (value : UInt32) :
    (trace.write block offset value).toList =
      trace.toList ++ [⟨block, true, offset, value⟩] := by
  simp [toList, write]

end Trace

end Nucleus
