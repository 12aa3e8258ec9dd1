import Nucleus.Executive.Effect

namespace Nucleus

class Hardware (Machine : Type) where
  claim : Machine → Option Nat × Machine
  readings : Machine → Option Nat → Readings
  perform : Machine → Effect → Machine

namespace Hardware

variable {Machine : Type} [Hardware Machine]

def performAll (machine : Machine) (effects : List Effect) : Machine :=
  effects.foldl perform machine

@[simp] theorem performAll_nil (machine : Machine) :
    performAll machine [] = machine := rfl

@[simp] theorem performAll_cons (machine : Machine) (effect : Effect)
    (effects : List Effect) :
    performAll machine (effect :: effects) =
      performAll (perform machine effect) effects := rfl

end Hardware

end Nucleus
