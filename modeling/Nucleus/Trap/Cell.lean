/-!
Kernel state that only the trap in progress may touch.  Handlers run one at a
time with interrupts masked, so a cell is its content together with the one way
of changing it: a borrow, which sees the content and leaves new content behind.
-/

namespace Nucleus

structure TrapCell (State : Type) where
  content : State
  deriving DecidableEq, Repr

namespace TrapCell

variable {State Result : Type}

def borrow (cell : TrapCell State) (use : State → Result × State) :
    Result × TrapCell State :=
  let (result, content) := use cell.content
  (result, ⟨content⟩)

def modify (cell : TrapCell State) (change : State → State) :
    TrapCell State :=
  (cell.borrow fun content => ((), change content)).2

@[simp] theorem content_modify (cell : TrapCell State)
    (change : State → State) :
    (cell.modify change).content = change cell.content := rfl

end TrapCell

end Nucleus
