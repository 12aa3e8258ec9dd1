namespace Nucleus

/-- Devices whose drivers may hook their line. -/
inductive DeviceLine
  | storage
  | network0
  | network1
  | usb
  deriving DecidableEq, Repr

namespace DeviceLine

def all : List DeviceLine :=
  [storage, network0, network1, usb]

def name : DeviceLine → String
  | storage => "storage"
  | network0 => "net0"
  | network1 => "net1"
  | usb => "usb"

def ofName? (name : String) : Option DeviceLine :=
  all.find? fun line => line.name == name

end DeviceLine

/-- Identifiers from here on are reserved: no device raises them. -/
def firstReservedInterrupt : Nat := 1020

structure InterruptLines where
  tick : Nat
  sleep : Nat
  input : Nat
  device : DeviceLine → Nat

namespace InterruptLines

def unassigned : InterruptLines where
  tick := firstReservedInterrupt
  sleep := firstReservedInterrupt
  input := firstReservedInterrupt
  device := fun _ => firstReservedInterrupt

def ofNumbers (tick sleep input storage network0 network1 usb : Nat) :
    InterruptLines where
  tick := tick
  sleep := sleep
  input := input
  device
    | .storage => storage
    | .network0 => network0
    | .network1 => network1
    | .usb => usb

def toList (lines : InterruptLines) : List Nat :=
  lines.tick :: lines.sleep :: lines.input :: DeviceLine.all.map lines.device

end InterruptLines

end Nucleus
