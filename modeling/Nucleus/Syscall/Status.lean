/-!
The status a system call leaves in its return register: zero for success,
negative values for errors, positive values for results.
-/

namespace Nucleus

inductive SyscallStatus
  | ok
  | invalidArgument
  | noMemory
  | notOwner
  | unknownRegion
  | alreadyReleased
  deriving DecidableEq, Repr

namespace SyscallStatus

def name : SyscallStatus → String
  | ok => "Ok"
  | invalidArgument => "InvalidArg"
  | noMemory => "NoMemory"
  | notOwner => "NotOwner"
  | unknownRegion => "UnknownRegion"
  | alreadyReleased => "AlreadyReleased"

def value : SyscallStatus → Int
  | ok => 0
  | invalidArgument => -1
  | noMemory => -2
  | notOwner => -3
  | unknownRegion => -4
  | alreadyReleased => -5

def ofValue? (value : Int) : Option SyscallStatus :=
  [ok, invalidArgument, noMemory, notOwner, unknownRegion,
    alreadyReleased].find? fun status => status.value == value

/-- Splits a return register into a result and an error; an unassigned
negative value counts as an invalid argument. -/
def check (value : Int) : Except SyscallStatus Int :=
  if 0 ≤ value then .ok value
  else .error ((ofValue? value).getD invalidArgument)

def returned : Except SyscallStatus Int → Int
  | .ok value => value
  | .error status => status.value

theorem ofValue?_value (status : SyscallStatus) :
    ofValue? status.value = some status := by
  cases status <;> rfl

end SyscallStatus

end Nucleus
