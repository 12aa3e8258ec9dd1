import Nucleus.Machine.Hardware

namespace Nucleus

structure Bench where
  pending : List Nat
  acknowledged : Array Nat
  now : Nat
  rearms : Nat
  /-- The deadline that the sleep comparator is set to. -/
  deadline : Option Nat
  keys : List KeyEvent
  hooksRun : List Hook
  memory : UserMemory
  screen : Screen
  written : Array (List UInt8)
  threshold : Log.Threshold
  reports : Array Log.Record
  /-- Whatever happens after a crash does not count. -/
  crashed : Bool

namespace Bench

def idle (memory : UserMemory) (screen : Screen)
    (threshold : Log.Threshold) : Bench where
  pending := []
  acknowledged := #[]
  now := 0
  rearms := 0
  deadline := none
  keys := []
  hooksRun := []
  memory := memory
  screen := screen
  written := #[]
  threshold := threshold
  reports := #[]
  crashed := false

def raise (bench : Bench) (interrupt : Nat) : Bench :=
  { bench with pending := bench.pending ++ [interrupt] }

def press (bench : Bench) (events : List KeyEvent) : Bench :=
  { bench with keys := bench.keys ++ events }

def clearRecord (bench : Bench) : Bench :=
  { bench with acknowledged := #[], written := #[], reports := #[] }

def perform (bench : Bench) : Effect → Bench
  | .acknowledge interrupt =>
      { bench with acknowledged := bench.acknowledged.push interrupt }
  | .rearmTick => { bench with rearms := bench.rearms + 1 }
  | .armSleep deadline => { bench with deadline := some deadline }
  | .disarmSleep => { bench with deadline := none }
  | .write bytes => { bench with written := bench.written.push bytes }
  | .store address bytes =>
      { bench with memory := bench.memory.store address bytes }
  | .draw drawing => { bench with screen := bench.screen.draw drawing }
  | .drainInput => { bench with keys := [] }
  | .call hook => { bench with hooksRun := hook :: bench.hooksRun }
  | .report record =>
      if bench.threshold.admits record.level then
        { bench with reports := bench.reports.push record }
      else bench
  | .crash => { bench with crashed := true }

instance : Hardware Bench where
  claim bench := (bench.pending.head?, { bench with
    pending := bench.pending.tail })
  readings bench pending :=
    { pending := pending
      now := bench.now
      keys := bench.keys
      screenSize := bench.screen.size
      charSize := bench.screen.charSize
      memory := bench.memory }
  perform := perform

end Bench

end Nucleus
