import Nucleus.Executive.Basic
import Nucleus.Fatal
import Nucleus.Syscall.Pair
import Nucleus.Word

/-!
The system call gateway.  A call finds its arguments in the caller's saved
context; how it ends is a `Flow`, and anything malformed beyond an error code
is fatal.
-/

namespace Nucleus

inductive Flow
  | resume (value : UInt64)
  /-- The caller gets a value and gives way. -/
  | giveWay (value : UInt64)
  | block (value : UInt64)
  | exit
  deriving DecidableEq, Repr

structure Service where
  exec : Executive
  effects : List Effect
  flow : Except FatalKind Flow

namespace Service

def resume (exec : Executive) (effects : List Effect) (value : UInt64) :
    Service :=
  ⟨exec, effects, .ok (.resume value)⟩

end Service

/-- The low half of a register as a signed coordinate. -/
def coordinate (register : UInt64) : Int :=
  register.toUInt32.toInt32.toInt

def pointAt (context : Context) (x y : Fin 6) : Point :=
  ⟨coordinate (context.argument x), coordinate (context.argument y)⟩

namespace Executive

def heapAlloc (exec : Executive) (caller : ProcessId) (size : Nat) :
    Service :=
  match exec.memory.allocate size caller with
  | .error cause =>
      Service.resume exec [Journal.heapRefused size caller cause] 0
  | .ok grant =>
      Service.resume
        { exec with
          memory := grant.memory
          table := exec.table.updateProcess caller
            (·.adoptHeap grant.region.base) }
        (Effect.crashIf grant.overflows) (UInt64.ofNat grant.region.base)

/-- The status of a heap release, with what it leaves behind.  A process's own
stack is no heap region. -/
def heapRelease (exec : Executive) (caller : ProcessId) (base : Nat) :
    Executive × List Effect × SyscallStatus :=
  match exec.table.process? caller with
  | none => (exec, [], .invalidArgument)
  | some process =>
      if base = process.stackBase then (exec, [], .invalidArgument)
      else
        let crash := Effect.crashIf (exec.memory.releaseOverflows base)
        match exec.memory.releaseAt base caller with
        | .error cause => (exec, crash, cause.status)
        | .ok memory =>
            ({ exec with
                memory := memory
                table := exec.table.updateProcess caller (·.dropHeap base) },
              crash, .ok)

def heapFree (exec : Executive) (caller : ProcessId) (base : Nat) : Service :=
  let (exec, effects, status) := exec.heapRelease caller base
  Service.resume exec effects (UInt64.ofInt status.value)

/-- Bytes copied out of process memory for one console write. -/
def printChunk : Nat := 128

/-- Writes memory to the console piece by piece, and says whether all of it
could be read. -/
def printFrom (memory : UserMemory) (address length : Nat) :
    List Effect × Bool :=
  if 0 < length then
    if overflowsWord address then ([.crash], true)
    else
      match memory.read address (min length printChunk) with
      | .error _ => ([], false)
      | .ok bytes =>
          let (writes, complete) :=
            printFrom memory (address + min length printChunk)
              (length - min length printChunk)
          (.write bytes :: writes, complete)
  else
    ([], true)
termination_by length
decreasing_by
  unfold printChunk
  omega

def print (exec : Executive) (memory : UserMemory)
    (address length : Nat) : Service :=
  match memory.check address length with
  | .error bad => ⟨exec, [], .error (.badUserMemory bad.address bad.length)⟩
  | .ok _ =>
      let (writes, complete) := printFrom memory address length
      if complete then Service.resume exec writes (UInt64.ofNat length)
      else ⟨exec, writes, .error (.badUserMemory address length)⟩

/-- Moves the caller's oldest pending event into its memory. -/
def readInput (exec : Executive) (caller : ProcessId) (memory : UserMemory)
    (address : Nat) : Service :=
  match exec.table.process? caller with
  | none => Service.resume exec [] 0
  | some process =>
      match process.input.pop? with
      | none => Service.resume exec [] 0
      | some (event, input) =>
          let taken := { exec with
            table := exec.table.updateProcess caller fun process =>
              { process with input := input } }
          let bytes := event.toBytes
          if memory.accessible address bytes.length then
            Service.resume taken [.store address bytes] 1
          else
            ⟨taken, [], .error (.badUserMemory address bytes.length)⟩

/-- Longest text that one call draws; the rest is dropped. -/
def longestText : Nat := 256

def drawText (exec : Executive) (memory : UserMemory) (corner : Point)
    (address length scale : Nat) (colour : UInt32) : Service :=
  let shown := min length longestText
  let reports :=
    if shown < length then [Journal.textTruncated length shown] else []
  if shown = 0 then Service.resume exec reports 0
  else
    match memory.read address shown with
    | .error _ => ⟨exec, reports, .error (.badUserMemory address length)⟩
    | .ok bytes =>
        Service.resume exec
          (reports ++ [.draw (.text corner bytes scale colour)]) 0

def packSize (size : Nat × Nat) : UInt64 :=
  Pair.pack (UInt32.ofNat size.1) (UInt32.ofNat size.2)

/-- Blocks the caller for a while; no time at all means giving way. -/
def sleep (exec : Executive) (caller : ProcessId)
    (now duration : Nat) : Service :=
  if duration = 0 then ⟨exec, [], .ok (.giveWay 0)⟩
  else
    let deadline := min (now + duration) maxWord
    match exec.sleepers.insert? caller deadline with
    | none => ⟨exec, [Journal.sleepQueueFull caller], .ok (.giveWay 0)⟩
    | some sleepers =>
        { exec := { exec with
            sleepers := sleepers
            table := exec.table.updateProcess caller fun process =>
              { process with state := .blocked } }
          effects := sleepers.next?.toList.map Effect.armSleep ++
            [Journal.sleeping caller deadline]
          flow := .ok (.block 0) }

def stop (exec : Executive) (caller : ProcessId) : Service :=
  match exec.terminate caller with
  | .ok (exec, effects) => ⟨exec, effects, .ok .exit⟩
  | .error error => ⟨exec, [Journal.stopFailed caller error], .ok .exit⟩

def perform (exec : Executive) (readings : Readings) (caller : ProcessId)
    (context : Context) : Syscall → Service
  | .heapAlloc => exec.heapAlloc caller (context.argument 0).toNat
  | .heapFree => exec.heapFree caller (context.argument 0).toNat
  | .print =>
      exec.print readings.memory (context.argument 0).toNat
        (context.argument 1).toNat
  | .readInput =>
      exec.readInput caller readings.memory (context.argument 0).toNat
  | .clear =>
      Service.resume exec
        [.draw (.clear (context.argument 0).toUInt32)] 0
  | .drawPixel =>
      Service.resume exec
        [.draw (.pixel (pointAt context 0 1)
          (context.argument 2).toUInt32)] 0
  | .drawLine =>
      Service.resume exec
        [.draw (.line ⟨pointAt context 0 1, pointAt context 2 3⟩
          (context.argument 4).toUInt32)] 0
  | .fillRect =>
      let corner := pointAt context 0 1
      Service.resume exec
        [.draw (.rectangle
          ⟨corner.x, corner.y, (context.argument 2).toUInt32.toNat,
            (context.argument 3).toUInt32.toNat⟩
          (context.argument 4).toUInt32)] 0
  | .drawChar =>
      Service.resume exec
        [.draw (.text (pointAt context 0 1) [(context.argument 2).toUInt8]
          (context.argument 3).toUInt32.toNat
          (context.argument 4).toUInt32)] 0
  | .drawString =>
      exec.drawText readings.memory (pointAt context 0 1)
        (context.argument 2).toNat (context.argument 3).toNat
        (context.argument 4).toUInt32.toNat (context.argument 5).toUInt32
  | .screenSize => Service.resume exec [] (packSize readings.screenSize)
  | .charSize =>
      Service.resume exec []
        (packSize (readings.charSize (context.argument 0).toUInt32.toNat))
  | .sleep => exec.sleep caller readings.now (context.argument 0).toNat
  | .yield => ⟨exec, [], .ok (.giveWay 0)⟩
  | .uptime => Service.resume exec [] (UInt64.ofNat readings.now)
  | .stop => exec.stop caller

def serve (exec : Executive) (readings : Readings) (caller : ProcessId)
    (context : Context) (number : UInt16) : Service :=
  match Syscall.ofNumber? number with
  | none => ⟨exec, [], .error (.unknownSyscall number)⟩
  | some call =>
      let service := exec.perform readings caller context call
      { service with
        effects := Journal.called caller call context :: service.effects }

end Executive

end Nucleus
