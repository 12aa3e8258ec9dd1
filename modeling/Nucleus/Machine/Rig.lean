import Nucleus.Machine.Bench
import Nucleus.Machine.Computer

namespace Nucleus

structure Rig where
  computer : Computer Bench
  latch : HaltLatch
  fatal : Option FatalReport
  shown : List FatalDisplay

namespace Rig

def start (computer : Computer Bench) : Rig :=
  ⟨computer, HaltLatch.opened, none, []⟩

def bench (rig : Rig) : Bench := rig.computer.machine

def setComputer (rig : Rig) (computer : Computer Bench) : Rig :=
  { rig with computer := computer }

def setBench (rig : Rig) (bench : Bench) : Rig :=
  rig.setComputer (rig.computer.setMachine bench)

def conclude (rig : Rig) (outcome : Option FatalReport × Computer Bench) :
    Option FatalReport × Rig :=
  (outcome.1,
    { rig with computer := outcome.2, fatal := outcome.1.or rig.fatal })

def interrupt (rig : Rig) (interrupt : Option Nat) : Rig :=
  let raised := rig.setBench (interrupt.elim rig.bench rig.bench.raise)
  raised.setComputer raised.computer.interrupt

/-- Reports the last fatal condition to the latch, and says whether it was
shown. -/
def showFatal? (rig : Rig) : Option (Bool × Rig) :=
  rig.fatal.map fun report =>
    let (latch, display) := rig.latch.report report
    (display.isSome,
      { rig with latch := latch, shown := rig.shown ++ display.toList })

end Rig

end Nucleus
