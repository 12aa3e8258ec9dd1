import Nucleus.Fatal
import Nucleus.Machine.Board

/-!
What a fatal condition leaves for a person to read: a dump of the registers,
a line on the console, and a banner across the top of the framebuffer.
-/

namespace Nucleus

namespace Registers

private def row (label : String) (value : UInt64) : List String :=
  [label, Numeral.paddedHex 16 value.toNat]

private def general (context : Context) (index : Fin 31) : List String :=
  row ("X" ++ Numeral.paddedDecimal 2 index.val ++ ": ")
    context.registers[index]

private def pair (context : Context) (index : Fin 15) : List String :=
  ["  "] ++ general context ⟨2 * index.val, by omega⟩ ++ ["    "] ++
    general context ⟨2 * index.val + 1, by omega⟩

private def faultRow (syndrome : Syndrome) : List String :=
  ["  Status: ", FaultStatus.name syndrome.faultStatus, " | ",
    if syndrome.isWrite then "Write" else "Read", " | FAR ",
    if syndrome.addressInvalid then "invalid" else "valid"]

/-- The rows of a dump of a trap: its cause, where it happened, and what the
registers held. -/
def dump (frame : Frame) : List (List String) :=
  let syndrome := frame.syndrome
  let context := frame.context
  let head :=
    [["Exception: ", ExceptionClass.name syndrome.exceptionClass, " ESR=",
        Numeral.paddedHex 16 syndrome.raw.toNat, " [EC=",
        Numeral.paddedHex 2 syndrome.exceptionClass.toNat, " ISS=",
        Numeral.paddedHex 5 syndrome.specific.toNat, "]"],
      row "ELR:   " context.programCounter,
      row "FAR:   " frame.faultAddress,
      row "SPSR:  " context.processorState ++
        [" [", ProcessorState.levelName ⟨context.processorState⟩, "]"]]
  let fault :=
    if ExceptionClass.isAbort syndrome.exceptionClass then [faultRow syndrome]
    else []
  head ++ fault ++ (List.finRange 15).map (pair context) ++
    [["  "] ++ general context 30 ++ row "     SP: " context.stackPointer]

end Registers

namespace FatalDisplay

def background : UInt32 := 0xaa0000

def foreground : UInt32 := 0xffffff

def magnification : Nat := 2

def header (display : FatalDisplay) : Message 32 :=
  Message.ofPieces ["FATAL [", Numeral.decimal display.code, "]: "]

def consoleText (display : FatalDisplay) : List String :=
  ["\n\x1b[31m*** ", display.header.text, display.message, "\x1b[0m\n"]

/-- What is drawn over a framebuffer of a width. -/
def banner (display : FatalDisplay) (width : Nat) : List Drawing :=
  let line := Font.cellHeight * magnification
  [.rectangle ⟨0, 0, width, line * 3⟩ background,
    .text ⟨8, line / 2⟩ display.header.bytes magnification foreground,
    .text ⟨8, line * 3 / 2⟩ (Utf8.encode display.message.toList)
      magnification foreground]

end FatalDisplay

namespace Board

/-- Shows a fatal report: the console first, then the banner. -/
def showFatal (board : Board) (display : FatalDisplay) : Board :=
  let written := display.consoleText.foldl (fun board text =>
    board.write (Utf8.encode text.toList)) board
  (display.banner board.framebuffer.box.width).foldl drawOver written

end Board

end Nucleus
