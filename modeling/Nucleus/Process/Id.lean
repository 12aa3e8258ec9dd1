import Nucleus.Text.Numeral

/-!
Process identifiers.  Zero names the kernel and is never given to a process.
-/

namespace Nucleus

structure ProcessId where
  raw : UInt16
  deriving DecidableEq, Repr

namespace ProcessId

def kernel : ProcessId := ⟨0⟩

def isKernel (id : ProcessId) : Bool :=
  id.raw == 0

def text (id : ProcessId) : String :=
  Numeral.decimal id.raw.toNat

end ProcessId

end Nucleus
