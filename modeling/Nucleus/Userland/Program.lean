import Nucleus.Process.Basic
import Nucleus.Userland.Echo
import Nucleus.Userland.HeapCheck
import Nucleus.Userland.Painter
import Nucleus.Userland.Ticker

namespace Nucleus

inductive Program
  | ticker (stage : Ticker)
  | echo (stage : Echo)
  | heapCheck (stage : HeapCheck)
  | painter (stage : Painter)
  deriving DecidableEq, Repr

namespace Program

/-- What a program does next, unless it has returned. -/
def turn? (space : Workspace) : Program → Option (Turn Program)
  | ticker stage => (stage.turn? space).map (·.map ticker)
  | echo stage => (stage.turn? space).map (·.map echo)
  | heapCheck stage => (stage.turn? space).map (·.map heapCheck)
  | painter stage => (stage.turn? space).map (·.map painter)

def turn (space : Workspace) (program : Program) : Turn Program :=
  (program.turn? space).getD (space.call .stop program)

end Program

structure BootProgram where
  name : String
  entry : UInt64
  mode : ProcessMode
  program : Program

namespace BootProgram

def stackSize : Nat := 16 * 1024

def all : List BootProgram :=
  [⟨"ticker", 0x40080000, .kernel, .ticker (.asking 1)⟩,
    ⟨"echo", 0x40081000, .user, .echo .greeting⟩,
    ⟨"heap", 0x40082000, .user, .heapCheck .asking⟩,
    ⟨"painter", 0x40083000, .user, .painter .measuring⟩]

def hasKeyboard (boot : BootProgram) : Bool :=
  boot.name == "echo"

end BootProgram

end Nucleus
