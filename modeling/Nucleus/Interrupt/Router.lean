import Nucleus.Interrupt.Line

/-!
Routing: what an interrupt identifier means.  The first line that carries the
identifier wins, in the order tick, sleep, input, devices.
-/

namespace Nucleus

inductive Route
  | tick
  | sleep
  | input
  | device (line : DeviceLine)
  | unknown (interrupt : Nat)
  deriving DecidableEq, Repr

/-- A driver's hook, by the number it was registered under. -/
abbrev Hook := Nat

structure Router where
  lines : InterruptLines
  hook? : DeviceLine → Option Hook

namespace Router

def ofLines (lines : InterruptLines) : Router :=
  ⟨lines, fun _ => none⟩

def install (router : Router) (line : DeviceLine) (hook : Hook) : Router :=
  { router with
    hook? := fun other => if other = line then some hook else router.hook? other }

def route (router : Router) (interrupt : Nat) : Route :=
  if firstReservedInterrupt ≤ interrupt then .unknown interrupt
  else if interrupt = router.lines.tick then .tick
  else if interrupt = router.lines.sleep then .sleep
  else if interrupt = router.lines.input then .input
  else
    match DeviceLine.all.find? fun line =>
        router.lines.device line == interrupt with
    | some line => .device line
    | none => .unknown interrupt

@[simp] theorem hook?_install_same (router : Router) (line : DeviceLine)
    (hook : Hook) : (router.install line hook).hook? line = some hook := by
  simp [install]

theorem route_unassigned (hook? : DeviceLine → Option Hook)
    (interrupt : Nat) :
    route ⟨InterruptLines.unassigned, hook?⟩ interrupt =
      .unknown interrupt := by
  by_cases reserved : firstReservedInterrupt ≤ interrupt
  · simp [route, reserved]
  · have assigned : interrupt ≠ firstReservedInterrupt := by omega
    simp [route, reserved, InterruptLines.unassigned, DeviceLine.all,
      assigned, Ne.symm assigned]

end Router

end Nucleus
