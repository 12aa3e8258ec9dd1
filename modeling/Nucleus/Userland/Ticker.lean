import Nucleus.Userland.Turn

namespace Nucleus

inductive Ticker
  | asking (round : Nat)
  | told (round : Nat)
  | spoken (round : Nat)
  | closing
  | returned
  deriving DecidableEq, Repr

namespace Ticker

def rounds : Nat := 5

def turn? (space : Workspace) : Ticker → Option (Turn Ticker)
  | asking round => some (space.call .uptime (told round))
  | told round =>
      some (space.say
        ["ticker: round ", Numeral.decimal round, " at ",
          Numeral.decimal space.reply.toNat, " ms"] (spoken round))
  | spoken round =>
      some (space.call (.sleep 1000)
        (if round < rounds then asking (round + 1) else closing))
  | closing => some (space.say ["ticker: done"] returned)
  | returned => none

end Ticker

end Nucleus
