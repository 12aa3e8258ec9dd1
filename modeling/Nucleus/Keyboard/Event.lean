import Nucleus.Text.Utf8

/-!
Key events, laid out as boot-protocol keyboard reports: a byte of modifiers, a
reserved byte and six usage codes.  `ofAscii?` turns a character from a serial
line into the keystroke that types it; `ascii?` reads the character back.
-/

namespace Nucleus

structure KeyEvent where
  modifier : UInt8
  reserved : UInt8
  keys : Vector UInt8 6
  deriving DecidableEq, Repr

namespace KeyEvent

def leftControl : UInt8 := 0x01

def leftShift : UInt8 := 0x02

def keyA : UInt8 := 0x04

def keyZ : UInt8 := 0x1d

def enter : UInt8 := 0x28

def escape : UInt8 := 0x29

def backspace : UInt8 := 0x2a

def tab : UInt8 := 0x2b

def space : UInt8 := 0x2c

def empty : KeyEvent := ⟨0, 0, Vector.replicate 6 0⟩

def press (modifier code : UInt8) : KeyEvent :=
  ⟨modifier, 0, #v[code, 0, 0, 0, 0, 0]⟩

/-- Digits and punctuation without shift: character and usage code. -/
def plainKeys : List (UInt8 × UInt8) :=
  [(0x31, 0x1e), (0x32, 0x1f), (0x33, 0x20), (0x34, 0x21), (0x35, 0x22),
    (0x36, 0x23), (0x37, 0x24), (0x38, 0x25), (0x39, 0x26), (0x30, 0x27),
    (0x2d, 0x2d), (0x3d, 0x2e), (0x5b, 0x2f), (0x5d, 0x30), (0x5c, 0x31),
    (0x3b, 0x33), (0x27, 0x34), (0x60, 0x35), (0x2c, 0x36), (0x2e, 0x37),
    (0x2f, 0x38)]

def shiftedKeys : List (UInt8 × UInt8) :=
  [(0x21, 0x1e), (0x40, 0x1f), (0x23, 0x20), (0x24, 0x21), (0x25, 0x22),
    (0x5e, 0x23), (0x26, 0x24), (0x2a, 0x25), (0x28, 0x26), (0x29, 0x27),
    (0x5f, 0x2d), (0x2b, 0x2e), (0x7b, 0x2f), (0x7d, 0x30), (0x7c, 0x31),
    (0x3a, 0x33), (0x22, 0x34), (0x7e, 0x35), (0x3c, 0x36), (0x3e, 0x37),
    (0x3f, 0x38)]

def codeOf? (table : List (UInt8 × UInt8)) (char : UInt8) : Option UInt8 :=
  (table.find? fun entry => entry.1 == char).map (·.2)

def charOf? (table : List (UInt8 × UInt8)) (code : UInt8) : Option UInt8 :=
  (table.find? fun entry => entry.2 == code).map (·.1)

/-- The keystroke that types a character, if some key does. -/
def ofAscii? (char : UInt8) : Option KeyEvent :=
  if 0x61 ≤ char ∧ char ≤ 0x7a then some (press 0 (keyA + (char - 0x61)))
  else if 0x41 ≤ char ∧ char ≤ 0x5a then
    some (press leftShift (keyA + (char - 0x41)))
  else if char = 0x0d ∨ char = 0x0a then some (press 0 enter)
  else if char = 0x1b then some (press 0 escape)
  else if char = 0x08 ∨ char = 0x7f then some (press 0 backspace)
  else if char = 0x09 then some (press 0 tab)
  else if char = 0x20 then some (press 0 space)
  else if 0x01 ≤ char ∧ char ≤ 0x1a then
    some (press leftControl (keyA + (char - 1)))
  else
    match codeOf? plainKeys char with
    | some code => some (press 0 code)
    | none => (codeOf? shiftedKeys char).map (press leftShift)

/-- The keystrokes that type a text; a byte that no key types is left out. -/
def ofText (text : String) : List KeyEvent :=
  (Utf8.encode text.toList).filterMap ofAscii?

def firstKey (event : KeyEvent) : UInt8 :=
  event.keys[0]

/-- The character that the first key types, if it types one. -/
def ascii? (event : KeyEvent) : Option UInt8 :=
  let code := event.firstKey
  let shifted := event.modifier &&& leftShift != 0
  if event.modifier &&& leftControl != 0 then
    if keyA ≤ code ∧ code ≤ keyZ then some (code - keyA + 1) else none
  else if keyA ≤ code ∧ code ≤ keyZ then
    some ((if shifted then 0x41 else 0x61) + (code - keyA))
  else if code = enter then some 0x0a
  else if code = escape then some 0x1b
  else if code = backspace then some 0x08
  else if code = tab then some 0x09
  else if code = space then some 0x20
  else charOf? (if shifted then shiftedKeys else plainKeys) code

def toBytes (event : KeyEvent) : List UInt8 :=
  event.modifier :: event.reserved :: event.keys.toList

def ofBytes? : List UInt8 → Option KeyEvent
  | [modifier, reserved, k₀, k₁, k₂, k₃, k₄, k₅] =>
      some ⟨modifier, reserved, #v[k₀, k₁, k₂, k₃, k₄, k₅]⟩
  | _ => none

def isEmpty (event : KeyEvent) : Bool :=
  event.keys.all (· == 0)

@[simp] theorem length_toBytes (event : KeyEvent) :
    event.toBytes.length = 8 := by
  simp [toBytes]

end KeyEvent

end Nucleus
