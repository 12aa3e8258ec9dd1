import Nucleus.Device.InterruptController
import Nucleus.Device.Serial
import Nucleus.Log.Line
import Nucleus.Machine.Hardware

namespace Nucleus

structure Board where
  controller : InterruptController
  serial : SerialPort
  now : Nat
  rearms : Nat
  deadline : Option Nat
  memory : UserMemory
  framebuffer : Raster
  /-- Processes draw on the framebuffer. -/
  attached : Bool
  threshold : Log.Threshold
  crashed : Bool

namespace Board

/-- The screen as processes see it. -/
def screen (board : Board) : Screen :=
  if board.attached then some board.framebuffer else none

def raise (board : Board) (interrupt : Nat) : Board :=
  { board with controller := board.controller.raise interrupt }

def arrive (board : Board) (words : List UInt32) : Board :=
  { board with serial := board.serial.arrive words }

def write (board : Board) (bytes : List UInt8) : Board :=
  { board with serial := board.serial.putBytes bytes }

def drawOver (board : Board) (drawing : Drawing) : Board :=
  { board with framebuffer := board.framebuffer.draw drawing }

def log (board : Board) (record : Log.Record) : Board :=
  if board.threshold.admits record.level ∧
      Log.consoleThreshold.admits record.level then
    board.write (record.line board.now)
  else board

def clearRecord (board : Board) : Board :=
  { board with
    controller := board.controller.clearRecord
    serial := board.serial.clearRecord }

def acknowledged (board : Board) : List UInt32 :=
  board.controller.trace.written InterruptController.processorInterface
    InterruptController.endRegister

def receiveClears (board : Board) : Nat :=
  (board.serial.trace.written "" SerialPort.interruptClear).length

def crash (board : Board) : Board :=
  { board with crashed := true }

/-- Tells the controller that an interrupt has been dealt with.  Its driver
knows of no reserved identifiers. -/
def acknowledge (board : Board) (interrupt : Nat) : Board :=
  match board.controller.finish? interrupt with
  | some controller => { board with controller := controller }
  | none => board.crash

def perform (board : Board) : Effect → Board
  | .acknowledge interrupt => board.acknowledge interrupt
  | .rearmTick => { board with rearms := board.rearms + 1 }
  | .armSleep deadline => { board with deadline := some deadline }
  | .disarmSleep => { board with deadline := none }
  | .write bytes => board.write bytes
  | .store address bytes =>
      { board with memory := board.memory.store address bytes }
  | .draw drawing => if board.attached then board.drawOver drawing else board
  | .drainInput => { board with serial := board.serial.drainKeys.2 }
  -- No driver installs a hook here.
  | .call _ => board
  | .report record => board.log record
  | .crash => board.crash

instance : Hardware Board where
  claim board :=
    let (pending, controller) := board.controller.claim
    (pending, { board with controller := controller })
  readings board pending :=
    { pending := pending
      now := board.now
      keys := board.serial.drainKeys.1
      screenSize := board.screen.size
      charSize := board.screen.charSize
      memory := board.memory }
  perform := perform

end Board

end Nucleus
