import Nucleus.Userland.Turn

/-!
The heap check obtains a region, fills it, lets others run, and looks whether
everything is still there.  Then it gives the region back, twice: the second
time has to fail.
-/

namespace Nucleus

inductive HeapCheck
  | asking
  | answered
  | yielded (base : UInt64)
  | rested (base : UInt64)
  | freed (base : UInt64) (intact : Bool)
  | freedAgain (base : UInt64) (intact wasFreed : Bool)
  | returned
  deriving DecidableEq, Repr

namespace HeapCheck

def size : Nat := 3 * 4096

/-- What the region is filled with: every byte tells its place. -/
def pattern : List UInt8 :=
  (List.range size).map UInt8.ofNat

private def succeeded (space : Workspace) : Bool :=
  (Reply.status space.reply).isOk

private def spelled (answer : Bool) : String :=
  if answer then "true" else "false"

def turn? (space : Workspace) : HeapCheck → Option (Turn HeapCheck)
  | asking => some (space.call (.heapAlloc (UInt64.ofNat size)) answered)
  | answered =>
      some (match Reply.heap? space.reply with
        | none => space.say ["heap: allocation refused"] returned
        | some base =>
            ⟨space.memory.store base.toNat pattern, .yield, yielded base⟩)
  | yielded base => some (space.call (.sleep 50) (rested base))
  | rested base =>
      some (space.call (.heapFree base)
        (freed base (space.memory.bytesAt base.toNat size == pattern)))
  | freed base intact =>
      some (space.call (.heapFree base)
        (freedAgain base intact (succeeded space)))
  | freedAgain base intact wasFreed =>
      some (space.say
        ["heap: ", Numeral.decimal size, " bytes at ",
          Numeral.hex base.toNat, ", intact=", spelled intact, " freed=",
          spelled wasFreed, " double_free_rejected=",
          spelled (!succeeded space)] returned)
  | returned => none

end HeapCheck

end Nucleus
