import Nucleus.Executive.Effect
import Nucleus.Process.Rotation
import Nucleus.Syscall.Number

namespace Nucleus

namespace Journal

private def record (level : Log.Level) (target : String)
    (pieces : List String) : Effect :=
  .report ⟨level, target, pieces⟩

def configured (base size pages : Nat) : Effect :=
  record .info Log.Target.executive
    ["executive: process memory ", Numeral.hex base, "+", Numeral.hex size,
      ", ", Numeral.decimal pages, " pages"]

def hookInstalled (line : DeviceLine) : Effect :=
  record .debug Log.Target.executive
    ["irq: ", line.name, " callback installed"]

def created (request : SpawnRequest) (slot : Fin 16) (process : Process) :
    Effect :=
  record .debug Log.Target.processTable
    ["created process ", process.id.text, " '", request.name, "' slot=",
      Numeral.decimal slot.val, " entry=", Numeral.hex request.entry.toNat,
      " stack=", Numeral.hex process.stackBase, "..",
      Numeral.hex process.context.stackPointer.toNat]

def stackRefused (name : String) (cause : MemoryError) : Effect :=
  record .debug Log.Target.processTable
    ["no stack for ", name, ": ", cause.message]

def terminated (id : ProcessId) (released : Nat) : List Effect :=
  [record .trace Log.Target.processTable
      ["process ", id.text, " released ", Numeral.decimal released,
        " regions"],
    record .debug Log.Target.processTable ["terminated process ", id.text]]

def inputOverflowed (id : ProcessId) : Effect :=
  record .trace Log.Target.processTable
    ["input ring of process ", id.text, " overflowed"]

def inputDropped : Effect :=
  record .trace Log.Target.executive
    ["input: no focused process, event dropped"]

def switched (id : ProcessId) (slot : Fin 16) : Effect :=
  record .trace Log.Target.rotation
    ["sched: switch to ", id.text, " (slot ", Numeral.decimal slot.val, ")"]

def idling : Effect :=
  record .trace Log.Target.rotation ["sched: nothing ready, idling"]

def succeeded (id : ProcessId) (selection : Selection) : Effect :=
  record .trace Log.Target.executive
    ["terminate: pid ", id.text, " was running, now ", selection.text]

def starting (live : Nat) (selection : Selection) : Effect :=
  record .info Log.Target.executive
    ["executive: starting with ", Numeral.decimal live,
      " live processes, first ", selection.text]

def hookMissing (line : DeviceLine) (interrupt : Nat) : Effect :=
  record .warn Log.Target.executive
    ["irq: no ", line.name, " callback for INTID ",
      Numeral.decimal interrupt]

def interruptUnknown (interrupt : Nat) : Effect :=
  record .warn Log.Target.executive
    ["irq: unhandled INTID ", Numeral.decimal interrupt]

def woke (id : ProcessId) (now : Nat) : Effect :=
  record .trace Log.Target.executive
    ["sleep: pid ", id.text, " woke at ", Numeral.decimal now, " ms"]

def called (caller : ProcessId) (call : Syscall) (context : Context) :
    Effect :=
  record .trace Log.Target.gateway
    ["syscall: pid ", caller.text, " ", call.name,
      " (x0=", Numeral.hex (context.argument 0).toNat,
      ", x1=", Numeral.hex (context.argument 1).toNat,
      ", x2=", Numeral.hex (context.argument 2).toNat, ")"]

def heapRefused (size : Nat) (caller : ProcessId) (cause : MemoryError) :
    Effect :=
  record .debug Log.Target.heapCalls
    ["heap_alloc(", Numeral.decimal size, ") for pid ", caller.text, ": ",
      cause.message]

def textTruncated (length shown : Nat) : Effect :=
  record .trace Log.Target.drawingCalls
    ["draw_string: truncating ", Numeral.decimal length, " bytes to ",
      Numeral.decimal shown]

def sleepQueueFull (caller : ProcessId) : Effect :=
  record .warn Log.Target.timeCalls
    ["sleep queue full, pid ", caller.text, " yields instead"]

def sleeping (caller : ProcessId) (deadline : Nat) : Effect :=
  record .debug Log.Target.timeCalls
    ["pid ", caller.text, " sleeps until ", Numeral.decimal deadline, " ms"]

def stopFailed (caller : ProcessId) (error : ProcessError) : Effect :=
  record .warn Log.Target.timeCalls
    ["stop: pid ", caller.text, ": ", error.message]

end Journal

end Nucleus
