/-!
Log records.  A record keeps the pieces of its message apart, because a sink
with a bounded line cuts each piece on its own.
-/

namespace Nucleus

namespace Log

inductive Level
  | error
  | warn
  | info
  | debug
  | trace
  deriving DecidableEq, Repr

namespace Level

/-- Larger is more verbose. -/
def rank : Level → Nat
  | .error => 1
  | .warn => 2
  | .info => 3
  | .debug => 4
  | .trace => 5

def label : Level → String
  | .error => "ERROR"
  | .warn => "WARN"
  | .info => "INFO"
  | .debug => "DEBUG"
  | .trace => "TRACE"

def all : List Level :=
  [error, warn, info, debug, trace]

end Level

/-- The most verbose level let through; nothing passes without one. -/
abbrev Threshold := Option Level

/-- The threshold with a level's name; any other name lets nothing pass. -/
def Threshold.named (name : String) : Threshold :=
  Level.all.find? fun level => level.label == name.toUpper

def Threshold.admits : Threshold → Level → Bool
  | none, _ => false
  | some most, level => level.rank ≤ most.rank

structure Record where
  level : Level
  target : String
  pieces : List String
  deriving DecidableEq, Repr

def Record.message (record : Record) : String :=
  String.join record.pieces

def Record.brief (record : Record) : String :=
  record.level.label ++ " " ++ record.message

def Record.text (record : Record) : String :=
  String.join [record.level.label, " ", record.target, ": ", record.message]

namespace Target

def processTable : String := "vesper_core::process::table"

def rotation : String := "vesper_core::sched"

def executive : String := "vesper_core::executive"

def gateway : String := "vesper_core::syscall"

def heapCalls : String := "vesper_core::syscall::mem_ops"

def drawingCalls : String := "vesper_core::syscall::gfx_ops"

def timeCalls : String := "vesper_core::syscall::time_ops"

def trapEntry : String := "vesper_kernel::trap"

def bootPrograms : String := "vesper_kernel::demo"

def interruptController : String := "vesper_pal::gic"

def mailbox : String := "vesper_pal::mailbox"

end Target

end Log

end Nucleus
