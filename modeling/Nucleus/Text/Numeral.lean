/-!
Numerals in reports: decimal, and lower-case hexadecimal with the mark `0x`,
either as short as possible or padded with zeros to a number of digits.
-/

namespace Nucleus

namespace Numeral

/-- Digits of a number, most significant first; zero has one digit.  A base
below two writes every number as a single digit. -/
def digits (base number : Nat) : List Char :=
  if number < base ∨ base < 2 then
    [Nat.digitChar number]
  else
    digits base (number / base) ++ [Nat.digitChar (number % base)]
termination_by number
decreasing_by exact Nat.div_lt_self (by omega) (by omega)

def padded (width : Nat) (numeral : List Char) : List Char :=
  List.replicate (width - numeral.length) '0' ++ numeral

def decimal (number : Nat) : String :=
  String.ofList (digits 10 number)

def paddedDecimal (width number : Nat) : String :=
  String.ofList (padded width (digits 10 number))

def alignedDecimal (width number : Nat) : String :=
  let numeral := digits 10 number
  String.ofList (List.replicate (width - numeral.length) ' ' ++ numeral)

def hex (number : Nat) : String :=
  String.ofList ('0' :: 'x' :: digits 16 number)

def paddedHex (width number : Nat) : String :=
  String.ofList ('0' :: 'x' :: padded width (digits 16 number))

theorem length_padded (width : Nat) (numeral : List Char) :
    (padded width numeral).length = max width numeral.length := by
  simp [padded]
  omega

end Numeral

end Nucleus
