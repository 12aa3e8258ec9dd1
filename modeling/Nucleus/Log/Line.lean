import Nucleus.Log
import Nucleus.Text.Message
import Nucleus.Text.Numeral

/-!
Log lines on the console: the time in seconds and milliseconds, the level in
its colour, the target and the message, cut at the length of the line buffer.
-/

namespace Nucleus

namespace Log

def lineCapacity : Nat := 320

/-- The level as the console shows it, five columns wide and coloured. -/
def Level.coloured : Level → String
  | .error => "\x1b[31mERROR\x1b[0m"
  | .warn => "\x1b[33m WARN\x1b[0m"
  | .info => "\x1b[32m INFO\x1b[0m"
  | .debug => "\x1b[34mDEBUG\x1b[0m"
  | .trace => "\x1b[35mTRACE\x1b[0m"

namespace Record

def linePieces (record : Record) (now : Nat) : List String :=
  ["[", Numeral.alignedDecimal 8 (now / 1000), ".",
    Numeral.paddedDecimal 3 (now % 1000), "] ", record.level.coloured, " ",
    record.target, ": "] ++ record.pieces

/-- The bytes of the line that shows a record; the line end is never cut. -/
def line (record : Record) (now : Nat) : List UInt8 :=
  let line : Message lineCapacity := Message.ofPieces (record.linePieces now)
  line.bytes ++ [0x0a]

end Record

/-- The most verbose level that a console line is made of. -/
def consoleThreshold : Threshold := some .debug

end Log

end Nucleus
