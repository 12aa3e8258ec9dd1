import Nucleus.Interrupt.Line
import Nucleus.Screen.Framebuffer

namespace Nucleus

structure Platform where
  name : String
  distributorBase : Nat
  cpuInterfaceBase : Nat
  serialBase : Nat
  ramBase : Nat
  ramSize : Nat
  lines : InterruptLines

namespace Platform

/-- The timers' lines are the same on every board. -/
private def boardLines (input storage network0 network1 usb : Nat) :
    InterruptLines :=
  InterruptLines.ofNumbers 30 27 input storage network0 network1 usb

def qemuVirt : Platform where
  name := "QEMU virt"
  distributorBase := 0x08000000
  cpuInterfaceBase := 0x08010000
  serialBase := 0x09000000
  ramBase := 0x40000000
  ramSize := 0x08000000
  lines := boardLines 33 48 49 50 35

def raspberryPi4 : Platform where
  name := "Raspberry Pi 4"
  distributorBase := 0xff841000
  cpuInterfaceBase := 0xff842000
  serialBase := 0xfe201000
  ramBase := 0
  ramSize := 0x3b400000
  lines := boardLines 153 158 189 190 105

def current : Platform := qemuVirt

/-- The framebuffer that a board offers by itself: none. -/
def framebuffer? (_platform : Platform) (_width _height : Nat) :
    Option FramebufferGeometry :=
  none

end Platform

end Nucleus
