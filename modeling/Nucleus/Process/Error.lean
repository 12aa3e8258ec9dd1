import Nucleus.Memory.Error

namespace Nucleus

inductive ProcessError
  | tableFull
  | noStack (cause : MemoryError)
  | noSuchProcess
  | invalidStackSize
  deriving DecidableEq, Repr

namespace ProcessError

def all : List ProcessError :=
  [tableFull, noStack .exhausted, noSuchProcess, invalidStackSize]

def name : ProcessError → String
  | tableFull => "OutOfProcessSlots"
  | noStack _ => "OutOfMemory"
  | noSuchProcess => "NoSuchProcess"
  | invalidStackSize => "InvalidStackSize"

def message : ProcessError → String
  | tableFull => "process table full"
  | noStack _ => "out of process memory"
  | noSuchProcess => "no such process"
  | invalidStackSize => "invalid stack size"

end ProcessError

end Nucleus
