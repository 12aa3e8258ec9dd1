import Nucleus.Device.Access
import Nucleus.Log
import Nucleus.Screen.Framebuffer

/-!
The firmware mailbox.  A request is posted once there is room, and the driver
then reads replies until it finds its own.  Every wait gives up after a number
of polls, but nothing bounds the replies that belong to others.
-/

namespace Nucleus

namespace Mailbox

def readRegister : Nat := 0x00

def statusRegister : Nat := 0x18

def writeRegister : Nat := 0x20

def full : UInt32 := 0x80000000

def empty : UInt32 := 0x40000000

def success : UInt32 := 0x80000000

/-- Status reads before a wait gives up. -/
def pollLimit : Nat := 1000000

inductive Phase
  /-- Waiting for room, with some polls left. -/
  | awaitingRoom (polls : Nat)
  /-- The request has been posted. -/
  | awaitingReply (polls : Nat)
  | reading
  | answered
  | gaveUp
  deriving DecidableEq, Repr

namespace Phase

def start : Phase := awaitingRoom pollLimit

/-- The register read next, unless the call is over. -/
def register? : Phase → Option Nat
  | awaitingRoom _ => some statusRegister
  | awaitingReply _ => some statusRegister
  | reading => some readRegister
  | answered => none
  | gaveUp => none

def advance (request value : UInt32) : Phase → Phase
  | awaitingRoom polls =>
      if value &&& full = 0 then awaitingReply pollLimit
      else if polls ≤ 1 then gaveUp else awaitingRoom (polls - 1)
  | awaitingReply polls =>
      if value &&& empty = 0 then reading
      else if polls ≤ 1 then gaveUp else awaitingReply (polls - 1)
  | reading => if value = request then answered else awaitingReply pollLimit
  | answered => answered
  | gaveUp => gaveUp

/-- The request is posted on the way from one wait to the next. -/
def posts (before after : Phase) : Bool :=
  match before, after with
  | awaitingRoom _, awaitingReply _ => true
  | _, _ => false

end Phase

/-- The channel of property messages, in the low bits of a request. -/
def propertyChannel : UInt32 := 8

/-- A request names its message by an address that is a multiple of sixteen. -/
def requestFor (address : UInt32) : UInt32 :=
  (address &&& ~~~0xf) ||| propertyChannel

/-- The request for a message, if its address has no more than 32 bits. -/
def request? (address : UInt64) : Option UInt32 :=
  if address ≤ 0xffffffff then some (requestFor address.toUInt32) else none

/-- Asks for a framebuffer of a size: 32 bits a pixel, red first. -/
def message (width height : UInt32) : Vector UInt32 35 :=
  #v[140, 0,
    0x48003, 8, 0, width, height,
    0x48004, 8, 0, width, height,
    0x48009, 8, 0, 0, 0,
    0x48005, 4, 0, 32,
    0x48006, 4, 0, 1,
    0x40001, 8, 0, 4096, 0,
    0x40008, 4, 0, 0,
    0]

private def report (level : Log.Level) (pieces : List String) : Log.Record :=
  ⟨level, Log.Target.mailbox, pieces⟩

/-- Bus addresses repeat memory through windows that are told apart by the
upper two bits. -/
def busAddressMask : UInt32 := 0x3fffffff

def described (reply : Vector UInt32 35) : FramebufferGeometry where
  base := (reply[28] &&& busAddressMask).toNat
  width := reply[5].toNat
  height := reply[6].toNat
  stride := reply[33].toNat
  order := if reply[24] = 0 then .blueFirst else .redFirst

def describe (geometry : FramebufferGeometry) : List String :=
  ["mailbox: framebuffer FramebufferConfig \x7b base: ",
    Numeral.decimal geometry.base, ", width: ",
    Numeral.decimal geometry.width, ", height: ",
    Numeral.decimal geometry.height, ", stride: ",
    Numeral.decimal geometry.stride, ", is_bgr: ",
    if geometry.order = .blueFirst then "true" else "false", " \x7d"]

/-- The geometry in the message once the call is over, or why there is
none. -/
def granted (phase : Phase) (reply : Vector UInt32 35) :
    Except Log.Record FramebufferGeometry :=
  if phase ≠ .answered ∨ reply[1] ≠ success then
    .error (report .warn ["mailbox: framebuffer request failed"])
  else if reply[20] ≠ 32 then
    .error (report .warn ["mailbox: firmware gave depth ",
      Numeral.decimal reply[20].toNat, ", need 32"])
  else .ok (described reply)

structure Result where
  framebuffer : Option FramebufferGeometry
  record : Log.Record
  /-- The geometry was too large to be checked. -/
  crashed : Bool

/-- Takes the framebuffer only if it can be drawn on. -/
def Result.ofGeometry : Except Log.Record FramebufferGeometry → Result
  | .error record => ⟨none, record, false⟩
  | .ok geometry =>
      { framebuffer := if geometry.isValid then some geometry else none
        record := report .debug (describe geometry)
        crashed := geometry.overflows }

structure Firmware where
  /-- Status reads that find no room before the request. -/
  fullReads : Nat
  /-- Status reads that find no reply after the request. -/
  emptyReads : Nat
  /-- Replies to others that come first. -/
  strays : List UInt32
  code : UInt32
  /-- Words of the message that are changed, with what they become. -/
  changes : List (Nat × UInt32)
  posted : Option UInt32
  message : Vector UInt32 35
  trace : Trace
  deriving DecidableEq, Repr

namespace Firmware

def read (firmware : Firmware) (offset : Nat) : UInt32 × Firmware :=
  let (value, next) : UInt32 × Firmware :=
    if offset = statusRegister then
      match firmware.posted with
      | none =>
          (if 0 < firmware.fullReads then empty ||| full else empty,
            { firmware with fullReads := firmware.fullReads - 1 })
      | some _ =>
          (if 0 < firmware.emptyReads then empty else 0,
            { firmware with emptyReads := firmware.emptyReads - 1 })
    else
      match firmware.strays with
      | stray :: rest => (stray, { firmware with strays := rest })
      | [] => (firmware.posted.getD 0, firmware)
  -- Addresses differ from run to run, so the trace keeps the channel alone.
  let shown := if offset = statusRegister then value else value &&& 0xf
  (value, { next with trace := next.trace.read "" offset shown })

def post (firmware : Firmware) (request : UInt32) : Firmware :=
  { firmware with
    posted := some request
    message := firmware.changes.foldl (fun message (index, value) =>
      message.setIfInBounds index value) (firmware.message.set 1 firmware.code)
    trace := firmware.trace.write "" writeRegister (request &&& 0xf) }

def run (firmware : Firmware) (request : UInt32) (phase : Phase) :
    Nat → Phase × Firmware
  | 0 => (phase, firmware)
  | reads + 1 =>
      match phase.register? with
      | none => (phase, firmware)
      | some offset =>
          let (value, firmware) := firmware.read offset
          let next := phase.advance request value
          run (if phase.posts next then firmware.post request else firmware)
            request next reads

/-- Enough register reads for any call to this firmware. -/
def readLimit (firmware : Firmware) : Nat :=
  firmware.fullReads + firmware.emptyReads + 2 * firmware.strays.length + 4

def call (firmware : Firmware) (request : UInt32) :
    Result × Firmware :=
  let (phase, served) :=
    firmware.run request Phase.start firmware.readLimit
  (Result.ofGeometry (granted phase served.message), served)

end Firmware

end Mailbox

end Nucleus
