import Nucleus.Userland.Turn

namespace Nucleus

inductive Echo
  | greeting
  | reading
  | asked
  | returned
  deriving DecidableEq, Repr

namespace Echo

def farewell : UInt8 := 0x7e

def turn? (space : Workspace) : Echo → Option (Turn Echo)
  | greeting => some (space.say ["echo: type something, '~' quits"] reading)
  | reading => some (space.readInput asked)
  | asked =>
      some (match space.event? with
        | none => space.call (.sleep 20) reading
        | some event =>
            match event.ascii? with
            | none => space.readInput asked
            | some char =>
                if char = farewell then space.say ["\necho: bye"] returned
                else
                  space.print (Utf8.encode [Char.ofNat char.toNat]) reading)
  | returned => none

end Echo

end Nucleus
