import Nucleus.Device.Access
import Nucleus.Keyboard.Event

/-!
The serial port: a device of registers, and the driver that polls it.  Output
waits while the transmit queue is full, and a carriage return goes out before
every line feed.  Input is taken word by word until the receive queue is empty.
-/

namespace Nucleus

structure SerialPort where
  /-- Status reads that will still find the transmit queue full. -/
  busy : Nat
  /-- How many more will find it full behind the next byte, behind the one that
  follows it, and so on; behind all others none will. -/
  stalls : List Nat
  /-- Words in the receive queue; the low byte is the character, the bits
  above it carry line errors. -/
  received : List UInt32
  transmitted : Array UInt8
  trace : Trace
  deriving DecidableEq, Repr

namespace SerialPort

def dataRegister : Nat := 0x00

def statusRegister : Nat := 0x18

def integerDivisor : Nat := 0x24

def fractionalDivisor : Nat := 0x28

def lineControl : Nat := 0x2c

def control : Nat := 0x30

def interruptMask : Nat := 0x38

def interruptClear : Nat := 0x44

def transmitFull : UInt32 := 0x20

def receiveEmpty : UInt32 := 0x10

/-- The receive interrupt and the receive timeout. -/
def receiveInterrupts : UInt32 := 0x50

def idle : SerialPort := ⟨0, [], [], #[], Trace.empty⟩

def status (port : SerialPort) : UInt32 :=
  (if 0 < port.busy then transmitFull else 0) |||
    (if port.received.isEmpty then receiveEmpty else 0)

def poll (port : SerialPort) : SerialPort :=
  { port with
    busy := port.busy - 1
    trace := port.trace.read "" statusRegister port.status }

/-- A write to any register but the data register. -/
def writeRegister (port : SerialPort) (offset : Nat) (value : UInt32) :
    SerialPort :=
  { port with trace := port.trace.write "" offset value }

def transmit (port : SerialPort) (byte : UInt8) : SerialPort :=
  { port with
    busy := port.busy + port.stalls.headD 0
    stalls := port.stalls.tail
    transmitted := port.transmitted.push byte
    trace := port.trace.write "" dataRegister byte.toUInt32 }

def receive (port : SerialPort) : UInt32 × SerialPort :=
  let word := port.received.headD 0
  (word, { port with
    received := port.received.tail
    trace := port.trace.read "" dataRegister word })

def arrive (port : SerialPort) (words : List UInt32) : SerialPort :=
  { port with received := port.received ++ words }

def clearRecord (port : SerialPort) : SerialPort :=
  { port with transmitted := #[], trace := Trace.empty }

theorem transmitFull_status (port : SerialPort) :
    (port.status &&& transmitFull != 0) = decide (0 < port.busy) := by
  by_cases full : 0 < port.busy <;> cases words : port.received <;>
    simp [status, transmitFull, receiveEmpty, full, words] <;> decide

theorem receiveEmpty_status (port : SerialPort) :
    (port.status &&& receiveEmpty != 0) = port.received.isEmpty := by
  by_cases full : 0 < port.busy <;> cases words : port.received <;>
    simp [status, transmitFull, receiveEmpty, full, words] <;> decide

def clockFrequency : Nat := 48000000

def baudRate : Nat := 115200

/-- The divisor for the baud rate in 64ths, rounded. -/
def divisor : Nat := (clockFrequency * 4 + baudRate / 2) / baudRate

/-- Sets the port up for eight data bits, no parity and one stop bit. -/
def setUp (port : SerialPort) : SerialPort :=
  port.writeRegister control 0
    |>.writeRegister integerDivisor (UInt32.ofNat (divisor / 64))
    |>.writeRegister fractionalDivisor (UInt32.ofNat (divisor % 64))
    |>.writeRegister lineControl 0x70
    |>.writeRegister interruptMask 0
    |>.writeRegister control 0x301

def awaitRoom (port : SerialPort) : SerialPort :=
  if port.status &&& transmitFull != 0 then awaitRoom port.poll
  else port.poll
termination_by port.busy
decreasing_by
  rename_i full
  rw [transmitFull_status] at full
  simp only [decide_eq_true_eq] at full
  simp only [poll]
  omega

def put (port : SerialPort) (byte : UInt8) : SerialPort :=
  port.awaitRoom.transmit byte

/-- A carriage return goes out before a line feed. -/
def putByte (port : SerialPort) (byte : UInt8) : SerialPort :=
  if byte = 0x0a then (port.put 0x0d).put byte else port.put byte

def putBytes (port : SerialPort) (bytes : List UInt8) : SerialPort :=
  bytes.foldl putByte port

def putText (port : SerialPort) (text : String) : SerialPort :=
  port.putBytes (Utf8.encode text.toList)

def take (port : SerialPort) : Option UInt8 × SerialPort :=
  if port.status &&& receiveEmpty != 0 then (none, port.poll)
  else
    let (word, rest) := port.poll.receive
    (some word.toUInt8, rest)

def enableReceive (port : SerialPort) : SerialPort :=
  port.writeRegister interruptClear receiveInterrupts
    |>.writeRegister interruptMask receiveInterrupts

def clearReceive (port : SerialPort) : SerialPort :=
  port.writeRegister interruptClear receiveInterrupts

@[simp] theorem received_poll (port : SerialPort) :
    port.poll.received = port.received := rfl

theorem received_take (port : SerialPort) :
    port.take.2.received = port.received.tail := by
  unfold take
  rw [receiveEmpty_status]
  split
  · cases h : port.received <;> simp_all
  · rfl

theorem length_received_of_take {port rest : SerialPort} {char : UInt8}
    (taken : port.take = (some char, rest)) :
    rest.received.length < port.received.length := by
  have left : rest.received = port.received.tail := by
    rw [← received_take, taken]
  cases words : port.received with
  | nil =>
      rw [take, receiveEmpty_status, words] at taken
      cases taken
  | cons word others =>
      rw [left, words]
      exact Nat.lt_succ_self others.length

/-- The keystroke that types the next character which some key types; those
before it are passed over.  Once the queue is found empty, the receive interrupt
is cleared. -/
def nextKey? (port : SerialPort) : Option KeyEvent × SerialPort :=
  match _taken : port.take with
  | (none, rest) => (none, rest.clearReceive)
  | (some char, rest) =>
      match KeyEvent.ofAscii? char with
      | some event => (some event, rest)
      | none => nextKey? rest
termination_by port.received.length
decreasing_by exact length_received_of_take _taken

theorem length_received_of_nextKey? {port rest : SerialPort}
    {event : KeyEvent} (found : port.nextKey? = (some event, rest)) :
    rest.received.length < port.received.length := by
  fun_induction nextKey? port with
  | case1 port after taken => cases found
  | case2 port char after taken key mapped =>
      obtain ⟨_, rfl⟩ := Prod.mk.inj found
      exact length_received_of_take taken
  | case3 port char after taken unmapped ih =>
      exact Nat.lt_trans (ih found) (length_received_of_take taken)

def drainKeys (port : SerialPort) : List KeyEvent × SerialPort :=
  match _found : port.nextKey? with
  | (none, rest) => ([], rest)
  | (some event, rest) =>
      let (events, last) := drainKeys rest
      (event :: events, last)
termination_by port.received.length
decreasing_by exact length_received_of_nextKey? _found

end SerialPort

end Nucleus
