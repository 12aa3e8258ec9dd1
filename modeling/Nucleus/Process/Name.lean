import Nucleus.Text.Utf8

/-!
Process names live in sixteen bytes.  A longer name is cut at a character
boundary, and a name read back ends at its first zero byte.
-/

namespace Nucleus

structure ProcessName where
  bytes : Vector UInt8 16
  deriving DecidableEq, Repr

namespace ProcessName

def capacity : Nat := 16

def empty : ProcessName := ⟨Vector.replicate 16 0⟩

def ofString (name : String) : ProcessName :=
  let kept := Utf8.cut (Utf8.encode name.toList) capacity
  ⟨Vector.ofFn fun index : Fin 16 => kept[index.val]?.getD 0⟩

def text (name : ProcessName) : String :=
  String.ofList (Utf8.soundText (name.bytes.toList.takeWhile (· != 0)))

end ProcessName

end Nucleus
