import Nucleus.Process.Basic
import Nucleus.Text.Storage

/-!
Naming a process, as it happens in memory.  A process has one array of bytes
for its name, and every new name is written over the one before.  Each index is
checked against its array, and nothing is subtracted from less: an operation
that breaks a rule has no result.
-/

namespace Nucleus

namespace ProcessName

/-- How the bytes of a name are read: as text to their end, or only up to where
they cease to be text. -/
inductive Reading
  | whole (text : String)
  | broken (text : String)
  deriving DecidableEq, Repr

def Reading.text : Reading → String
  | whole text => text
  | broken text => text

def wipe (name : ProcessName) : ProcessName :=
  ⟨name.bytes.map fun _ => 0⟩

/-- Puts bytes in the place of those up to an index, of which there have to be
as many. -/
def overwrite? (name : ProcessName) (stop : Nat) (source : List UInt8) :
    Option ProcessName :=
  if stop ≤ capacity ∧ source.length = stop then
    some ⟨Vector.ofFn fun index : Fin 16 =>
      source[index.val]?.getD name.bytes[index]⟩
  else none

def set? (name : ProcessName) (text : String) : Option ProcessName := do
  let encoded := Utf8.encode text.toList
  let stop ← Utf8.stepBack? encoded (min encoded.length capacity)
  let source ← slice? encoded 0 stop
  name.wipe.overwrite? stop source

/-- Reads a name up to its first zero byte. -/
def read? (name : ProcessName) : Option Reading := do
  let bytes := name.bytes.toList
  let stop := (bytes.findIdx? (· == 0)).getD capacity
  let shown ← slice? bytes 0 stop
  match Utf8.decode? shown with
  | some text => some (.whole (String.ofList text))
  | none =>
      let sound ← slice? bytes 0 (Utf8.encode (Utf8.soundText shown)).length
      some (.broken (String.ofList ((Utf8.decode? sound).getD [])))

end ProcessName

namespace Process

def setName? (process : Process) (text : String) : Option Process :=
  (process.name.set? text).map fun name => { process with name := name }

def setNames? (process : Process) (texts : List String) : Option Process :=
  texts.foldlM setName? process

end Process

end Nucleus
