import Nucleus.Device.Access
import Nucleus.Device.Platform
import Nucleus.Log

/-!
The interrupt controller.  Its distributor enables and prioritises lines; its
processor interface hands out pending interrupts and is told when one has been
dealt with.  The distributor is plain memory, except that a line that is not
implemented cannot be enabled.
-/

namespace Nucleus

structure InterruptController where
  /-- Lines from here on do not exist. -/
  implemented : Nat
  words : Vector UInt32 1024
  pending : List Nat
  trace : Trace
  deriving DecidableEq, Repr

namespace InterruptController

def distributor : String := "gicd."

def processorInterface : String := "gicc."

def groups : Nat := 0x80

def enabling : Nat := 0x100

def priorities : Nat := 0x400

def triggers : Nat := 0xc00

def acknowledgeRegister : Nat := 0x20

def endRegister : Nat := 0x24

def nothingPending : Nat := 1023

def reset (implemented : Nat) : InterruptController :=
  ⟨implemented, Vector.replicate 1024 0, [], Trace.empty⟩

def wordAt (controller : InterruptController) (offset : Nat) : UInt32 :=
  controller.words[offset / 4]?.getD 0

def setWord (controller : InterruptController) (offset : Nat)
    (value : UInt32) : InterruptController :=
  { controller with
    words := controller.words.setIfInBounds (offset / 4) value }

/-- The bits of a word of lines that belong to lines that exist. -/
def existing (controller : InterruptController) (firstLine : Nat) : UInt32 :=
  UInt32.ofNat (1 <<< min 32 (controller.implemented - firstLine) - 1)

def read (controller : InterruptController) (offset : Nat) :
    UInt32 × InterruptController :=
  let value := controller.wordAt offset
  (value, { controller with
    trace := controller.trace.read distributor offset value })

/-- A write to a distributor word; the enabling words only ever gain bits. -/
def write (controller : InterruptController) (offset : Nat)
    (value : UInt32) : InterruptController :=
  let stored :=
    if enabling ≤ offset ∧ offset < enabling + 0x80 then
      controller.wordAt offset |||
        (value &&& controller.existing ((offset - enabling) * 8))
    else
      value
  { controller.setWord offset stored with
    trace := controller.trace.write distributor offset value }

def command (controller : InterruptController) (offset : Nat)
    (value : UInt32) : InterruptController :=
  { controller with
    trace := controller.trace.write processorInterface offset value }

def raise (controller : InterruptController) (interrupt : Nat) :
    InterruptController :=
  { controller with pending := controller.pending ++ [interrupt] }

/-- Takes note of no more than what happens from now on. -/
def clearRecord (controller : InterruptController) : InterruptController :=
  { controller with trace := Trace.empty }

inductive Trigger
  | level
  | edge
  deriving DecidableEq, Repr

def commonPriority : UInt32 := 0x80

/-- Lines below this one belong to the processor itself. -/
def firstSharedLine : Nat := 32

private def report (level : Log.Level) (pieces : List String) : Log.Record :=
  ⟨level, Log.Target.interruptController, pieces⟩

/-- Turns the controller on and lets interrupts of every priority through. -/
def setUp (controller : InterruptController) (platform : Platform) :
    InterruptController × Log.Record :=
  let grouped := (List.range 32).foldl (fun controller index =>
    controller.write (groups + 4 * index) 0xffffffff) (controller.write 0 2)
  ((grouped.command 0 1).command 4 0xff |>.command 4 0xff,
    report .debug
      ["gic: GICv2 at GICD=", Numeral.hex platform.distributorBase, " GICC=",
        Numeral.hex platform.cpuInterfaceBase])

/-- Gives a line its priority; the word's other lines lose theirs. -/
def prioritise (controller : InterruptController) (line : Nat) :
    InterruptController :=
  controller.write (priorities + 4 * (line / 4))
    (commonPriority <<< UInt32.ofNat (8 * (line % 4)))

def setTrigger (controller : InterruptController) (line : Nat)
    (trigger : Trigger) : InterruptController :=
  let offset := triggers + 4 * (line / 16)
  let bit : UInt32 := 1 <<< UInt32.ofNat (2 * (line % 16) + 1)
  let (value, controller) := controller.read offset
  controller.write offset
    (match trigger with
      | .edge => value ||| bit
      | .level => value &&& ~~~bit)

def allow (controller : InterruptController) (line : Nat) :
    Bool × InterruptController :=
  let offset := enabling + 4 * (line / 32)
  let bit : UInt32 := 1 <<< UInt32.ofNat (line % 32)
  let (value, controller) := (controller.write offset bit).read offset
  (value &&& bit != 0, controller)

/-- Configures and enables a line; there is none to configure from the reserved
identifiers on. -/
def enable? (controller : InterruptController) (line : Nat)
    (trigger : Trigger) : Option (InterruptController × Log.Record) :=
  if firstReservedInterrupt ≤ line then none
  else
    let prioritised := controller.prioritise line
    -- The processor's own lines have fixed triggers.
    let configured :=
      if firstSharedLine ≤ line then prioritised.setTrigger line trigger
      else prioritised
    let (taken, controller) := configured.allow line
    some (controller,
      if taken then
        report .debug ["gic: INTID ", Numeral.decimal line, " enabled"]
      else
        report .warn ["gic: INTID ", Numeral.decimal line, " out of range"])

def claim (controller : InterruptController) :
    Option Nat × InterruptController :=
  let interrupt := controller.pending.headD nothingPending
  (if interrupt = nothingPending then none else some interrupt,
    { controller with
      pending := controller.pending.tail
      trace := controller.trace.read processorInterface acknowledgeRegister
        (UInt32.ofNat interrupt) })

/-- Reports an interrupt as dealt with; a reserved identifier cannot be. -/
def finish? (controller : InterruptController) (interrupt : Nat) :
    Option InterruptController :=
  if firstReservedInterrupt ≤ interrupt then none
  else some (controller.command endRegister (UInt32.ofNat interrupt))

end InterruptController

end Nucleus
