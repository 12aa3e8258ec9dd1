/-!
System calls by number.  The numbers are fixed for every program ever built
against them; gaps are unassigned.
-/

namespace Nucleus

inductive Syscall
  | heapAlloc
  | heapFree
  | print
  | readInput
  | clear
  | drawPixel
  | drawLine
  | fillRect
  | drawChar
  | drawString
  | screenSize
  | charSize
  | sleep
  | yield
  | uptime
  | stop
  deriving DecidableEq, Repr

namespace Syscall

def all : List Syscall :=
  [heapAlloc, heapFree, print, readInput, clear, drawPixel, drawLine, fillRect,
    drawChar, drawString, screenSize, charSize, sleep, yield, uptime, stop]

def number : Syscall → UInt16
  | heapAlloc => 0
  | heapFree => 1
  | print => 3
  | readInput => 5
  | clear => 10
  | drawPixel => 11
  | drawLine => 12
  | fillRect => 13
  | drawChar => 14
  | drawString => 15
  | screenSize => 20
  | charSize => 21
  | sleep => 30
  | yield => 31
  | uptime => 32
  | stop => 33

def ofNumber? (number : UInt16) : Option Syscall :=
  all.find? fun call => call.number == number

def name : Syscall → String
  | heapAlloc => "heap_alloc"
  | heapFree => "heap_free"
  | print => "print"
  | readInput => "read_input"
  | clear => "clear"
  | drawPixel => "draw_pixel"
  | drawLine => "draw_line"
  | fillRect => "fill_rect"
  | drawChar => "draw_char"
  | drawString => "draw_string"
  | screenSize => "screen_size"
  | charSize => "char_size"
  | sleep => "sleep"
  | yield => "yield"
  | uptime => "uptime_ms"
  | stop => "stop"

theorem ofNumber?_number (call : Syscall) :
    ofNumber? call.number = some call := by
  cases call <;> rfl

theorem number_of_ofNumber? {number : UInt16} {call : Syscall}
    (found : ofNumber? number = some call) : call.number = number := by
  simpa using List.find?_some found

end Syscall

end Nucleus
