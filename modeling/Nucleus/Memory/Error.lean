import Nucleus.Syscall.Status

namespace Nucleus

inductive MemoryError
  | exhausted
  | tooManyRegions
  | zeroSize
  | unknownRegion
  | notOwner
  | alreadyReleased
  | invalidWindow
  deriving DecidableEq, Repr

namespace MemoryError

def all : List MemoryError :=
  [exhausted, tooManyRegions, zeroSize, unknownRegion, notOwner,
    alreadyReleased, invalidWindow]

def name : MemoryError → String
  | exhausted => "Exhausted"
  | tooManyRegions => "TooManyRegions"
  | zeroSize => "ZeroSize"
  | unknownRegion => "UnknownRegion"
  | notOwner => "NotOwner"
  | alreadyReleased => "AlreadyReleased"
  | invalidWindow => "InvalidWindow"

def message : MemoryError → String
  | exhausted => "process memory exhausted"
  | tooManyRegions => "region table full"
  | zeroSize => "zero-sized region"
  | unknownRegion => "unknown region"
  | notOwner => "region owned by another process"
  | alreadyReleased => "region already released"
  | invalidWindow => "invalid memory window"

def status : MemoryError → SyscallStatus
  | exhausted => .noMemory
  | tooManyRegions => .noMemory
  | zeroSize => .invalidArgument
  | invalidWindow => .invalidArgument
  | unknownRegion => .unknownRegion
  | notOwner => .notOwner
  | alreadyReleased => .alreadyReleased

end MemoryError

end Nucleus
