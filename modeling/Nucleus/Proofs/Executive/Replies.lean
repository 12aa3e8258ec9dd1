import Nucleus.Proofs.Executive.Invocations

/-!
Replies.  A process reads in its result register what the kernel has done for
it: which region it was given, whether one was taken back, and which event it
finds in its memory.
-/

namespace Nucleus

theorem Process.stackBase_withContext (process : Process)
    (context : Context) :
    (process.withContext context).stackBase = process.stackBase := rfl

/-- The base that the kernel returns for a request; zero if it refuses. -/
def Allocator.baseFor (memory : Allocator) (size : Nat) (owner : ProcessId) :
    Nat :=
  match memory.allocate size owner with
  | .ok grant => grant.region.base
  | .error _ => 0

namespace Executive

variable {exec : Executive} {frame : Frame} {readings : Readings}
  {process : Process}

/-- What comes of a request for a region. -/
inductive Provides (exec : Executive) (process : Process) (size : Nat)
    (trap : Trap) : Prop
  | refused (cause : MemoryError)
      (refuses : exec.memory.allocate size process.id = .error cause)
      (kept : trap.exec.memory = exec.memory) (replied : trap.reply = 0)
  | granted (grant : Allocator.Grant)
      (grants : exec.memory.allocate size process.id = .ok grant)
      (given : trap.exec.memory = grant.memory)
      (replied : trap.reply = UInt64.ofNat grant.region.base)
      (low : .crash ∉ trap.effects → grant.region.base ≤ maxWord)

theorem Coherent.provides (coherent : exec.Coherent)
    (calls : exec.Calls frame process .heapAlloc) (readings : Readings) :
    exec.Provides process (frame.context.argument 0).toNat
      (exec.handleSynchronous frame readings) := by
  have memory := (coherent.untouched_capture frame.context).memory
  have served : exec.service frame readings process .heapAlloc =
      (exec.capture frame.context).heapAlloc process.id
        (frame.context.argument 0).toNat := rfl
  unfold heapAlloc at served
  rw [memory] at served
  cases allocated : exec.memory.allocate (frame.context.argument 0).toNat
      process.id with
  | error cause =>
      rw [allocated] at served
      have returns := coherent.returns calls (congrArg Service.flow served)
      refine .refused cause allocated ?_ (Trap.reply_of_frame returns.frame_eq)
      rw [returns.exec_eq, served]
      exact memory
  | ok grant =>
      rw [allocated] at served
      have returns := coherent.returns calls (congrArg Service.flow served)
      refine .granted grant allocated ?_
        (Trap.reply_of_frame returns.frame_eq) fun sound => ?_
      · rw [returns.exec_eq, served]
        rfl
      · rw [← mem_commands_iff rfl, returns.commands_eq, served,
          mem_commands_iff rfl] at sound
        change .crash ∉ Effect.crashIf grant.overflows at sound
        rw [mem_crashIf, Allocator.Grant.overflows, overflowsWord_iff] at sound
        exact Nat.not_lt.mp sound

structure TellsBase (exec : Executive) (process : Process) (size : Nat)
    (trap : Trap) : Prop where
  none_iff : Reply.heap? trap.reply = none ↔
    exec.memory.baseFor size process.id = 0
  base_eq : ∀ base, Reply.heap? trap.reply = some base →
    base.toNat = exec.memory.baseFor size process.id
  held : ∀ base, Reply.heap? trap.reply = some base →
    ∃ slot region, trap.exec.memory.Holds slot region ∧
      region.base = base.toNat ∧ region.owner = process.id

theorem Provides.tellsBase {size : Nat} {trap : Trap}
    (provides : exec.Provides process size trap) (completes : trap.Completes) :
    exec.TellsBase process size trap := by
  cases provides with
  | refused cause refuses kept replied =>
      have refused : exec.memory.baseFor size process.id = 0 := by
        rw [Allocator.baseFor, refuses]
      have none : Reply.heap? trap.reply = none := by
        rw [replied]
        rfl
      constructor
      · exact iff_of_true none refused
      · intro base found
        cases none.symm.trans found
      · intro base found
        cases none.symm.trans found
  | granted grant grants given replied low =>
      have granted : exec.memory.baseFor size process.id =
          grant.region.base := by
        rw [Allocator.baseFor, grants]
      have fits := low completes.2
      constructor
      · rw [replied, granted]
        exact Reply.heap?_eq_none_iff fits
      · rw [replied, granted]
        exact fun base => Reply.toNat_of_heap?_eq_some fits
      · rw [replied, given]
        intro base found
        obtain ⟨placement, _, rfl⟩ := Allocator.allocate_eq_ok grants
        exact ⟨placement.slot, _, Allocator.holds_granted _ _ _,
          (Reply.toNat_of_heap?_eq_some fits found).symm, rfl⟩

theorem Coherent.tellsBase (coherent : exec.Coherent)
    (current : exec.table.currentProcess? = some process) (size : UInt64)
    (completes : (exec.invoke frame readings (.heapAlloc size)).Completes) :
    exec.TellsBase process size.toNat
      (exec.invoke frame readings (.heapAlloc size)) := by
  have provides := coherent.provides
    (calls_calling current frame (.heapAlloc size)) readings
  rw [Frame.argument_calling] at provides
  exact provides.tellsBase completes

/-- What becomes of a region that a process gives back, and the status that it
is told. -/
inductive Released (memory : Allocator) (owner : ProcessId)
    (stackBase base : Nat) : Allocator → SyscallStatus → Prop
  | ownStack (stack : base = stackBase) :
      Released memory owner stackBase base memory .invalidArgument
  | refused (cause : MemoryError) (heap : base ≠ stackBase)
      (refuses : memory.releaseAt base owner = .error cause) :
      Released memory owner stackBase base memory cause.status
  | released (slot : Fin 128) (region : Region) (heap : base ≠ stackBase)
      (holds : memory.Holds slot region) (starts : region.base = base)
      (owned : region.owner = owner)
      (releases : memory.releaseAt base owner = .ok (memory.vacate slot)) :
      Released memory owner stackBase base (memory.vacate slot) .ok

theorem released_heapRelease {caller : ProcessId}
    (found : exec.table.process? caller = some process) (base : Nat) :
    Released exec.memory caller process.stackBase base
      (exec.heapRelease caller base).1.memory
      (exec.heapRelease caller base).2.2 := by
  unfold heapRelease
  rw [found]
  dsimp only
  split
  · rename_i stack
    exact .ownStack stack
  · rename_i heap
    cases releases : exec.memory.releaseAt base caller with
    | error cause => exact .refused cause heap releases
    | ok memory =>
        obtain ⟨slot, region, holds, starts, owned, rfl⟩ :=
          Allocator.releaseAt_eq_ok releases
        exact .released slot region heap holds starts owned releases

structure TellsRelease (exec : Executive) (process : Process) (base : Nat)
    (trap : Trap) : Prop where
  ok_iff : Reply.status trap.reply = .ok 0 ↔
    ∃ slot region, exec.memory.Holds slot region ∧ region.base = base ∧
      region.owner = process.id ∧ trap.exec.memory = exec.memory.vacate slot
  error_iff : ∀ status, Reply.status trap.reply = .error status ↔
    (base = process.stackBase ∧ status = .invalidArgument) ∨
    (base ≠ process.stackBase ∧ ∃ cause,
      exec.memory.releaseAt base process.id = .error cause ∧
        status = cause.status)
  ok_eq : ∀ result, Reply.status trap.reply = .ok result → result = 0

theorem ne_vacate {memory : Allocator} {slot : Fin 128} {region : Region}
    (holds : memory.Holds slot region) : memory ≠ memory.vacate slot := by
  intro same
  rw [same, Allocator.holds_vacate] at holds
  exact holds.1 rfl

/-- Whoever is told of an error finds everything where it was. -/
theorem ok_iff_of_error {trap : Trap} {base : Nat} {status : SyscallStatus}
    (told : Reply.status trap.reply = .error status)
    (kept : trap.exec.memory = exec.memory) :
    Reply.status trap.reply = .ok 0 ↔
      ∃ slot region, exec.memory.Holds slot region ∧ region.base = base ∧
        region.owner = process.id ∧
        trap.exec.memory = exec.memory.vacate slot := by
  refine iff_of_false ?_ ?_
  · rw [told]
    nofun
  · rintro ⟨slot, region, holds, _, _, vacated⟩
    exact ne_vacate holds (kept.symm.trans vacated)

theorem Released.tells {trap : Trap} {base : Nat} {status : SyscallStatus}
    (released : Released exec.memory process.id process.stackBase base
      trap.exec.memory status)
    (replied : trap.reply = UInt64.ofInt status.value) :
    exec.TellsRelease process base trap := by
  have told : Reply.status trap.reply =
      if status = .ok then .ok 0 else .error status := by
    rw [replied, Reply.status_value]
  generalize after : trap.exec.memory = memory at released
  cases released with
  | ownStack stack =>
      rw [if_neg (by decide)] at told
      refine ⟨ok_iff_of_error told after, fun status => ?_, ?_⟩
      · rw [told, Except.error.injEq]
        constructor
        · rintro rfl
          exact .inl ⟨stack, rfl⟩
        · rintro (⟨_, rfl⟩ | ⟨heap, _⟩)
          · rfl
          · exact absurd stack heap
      · rw [told]
        nofun
  | refused cause heap refuses =>
      rw [if_neg cause.status_ne_ok] at told
      refine ⟨ok_iff_of_error told after, fun status => ?_, ?_⟩
      · rw [told, Except.error.injEq]
        constructor
        · rintro rfl
          exact .inr ⟨heap, cause, refuses, rfl⟩
        · rintro (⟨stack, _⟩ | ⟨_, other, same, rfl⟩)
          · exact absurd stack heap
          · rw [Except.error.inj (refuses.symm.trans same)]
      · rw [told]
        nofun
  | released slot region heap holds starts owned releases =>
      rw [if_pos rfl] at told
      refine ⟨?_, fun status => ?_, ?_⟩
      · exact iff_of_true told ⟨slot, region, holds, starts, owned, after⟩
      · rw [told]
        refine iff_of_false nofun ?_
        rintro (⟨stack, _⟩ | ⟨_, cause, refuses, _⟩)
        · exact heap stack
        · rw [releases] at refuses
          cases refuses
      · rw [told]
        rintro result same
        exact (Except.ok.inj same).symm

theorem Coherent.tellsRelease (coherent : exec.Coherent)
    (current : exec.table.currentProcess? = some process) (base : UInt64) :
    exec.TellsRelease process base.toNat
      (exec.invoke frame readings (.heapFree base)) := by
  have served : exec.serviceOf frame readings process (.heapFree base) =
      (exec.capture (frame.calling (.heapFree base)).context).heapFree
        process.id base.toNat := by
    simp [serviceOf, service, perform, Frame.argument_calling,
      Invocation.heapFree]
  have found := coherent.process?_capture current
    (frame.calling (.heapFree base)).context
  have memory := (coherent.untouched_capture
    (frame.calling (.heapFree base)).context).memory
  have released := released_heapRelease found base.toNat
  rw [Process.stackBase_withContext] at released
  have resumes : (exec.serviceOf frame readings process
      (.heapFree base)).flow = .ok (.resume (UInt64.ofInt
        ((exec.capture (frame.calling (.heapFree base)).context).heapRelease
          process.id base.toNat).2.2.value)) := by
    rw [served]
    rfl
  obtain ⟨_, replied, _, after⟩ := coherent.reply_eq current resumes
  have left : (exec.invoke frame readings (.heapFree base)).exec.memory =
      ((exec.capture (frame.calling (.heapFree base)).context).heapRelease
        process.id base.toNat).1.memory := by
    rw [after, served]
    rfl
  rw [memory, ← left] at released
  exact released.tells replied

/-- What the reply to a call for the oldest event tells, together with what the
trap has left at the address. -/
structure TellsEvent (process : Process) (memory : UserMemory)
    (address : Nat) (trap : Trap) : Prop where
  event? : Reply.event? trap.reply
      ((memory.carryOut trap.effects).bytesAt address 8) =
    process.input.toList.head?
  taken : trap.exec.table.inboxes.inbox? process.id =
    some process.input.toList.tail

theorem Coherent.tellsEvent (coherent : exec.Coherent)
    (rings : exec.table.RingsSound)
    (current : exec.table.currentProcess? = some process) (address : UInt64)
    (completes : (exec.invoke frame readings (.readInput address)).Completes) :
    TellsEvent process readings.memory address.toNat
      (exec.invoke frame readings (.readInput address)) := by
  have fetches : exec.Fetches (frame.calling (.readInput address)) readings
      process (exec.invoke frame readings (.readInput address)) :=
    coherent.fetches rings
      (calls_calling current frame (.readInput address))
  have passed : (frame.calling (.readInput address)).context.argument 0 =
      address := Frame.argument_calling _ _ _
  constructor
  · cases content : process.input.toList with
    | nil =>
        obtain ⟨_, left, _⟩ := fetches.nothing content
        rw [Trap.reply_of_frame left]
        rfl
    | cons event rest =>
        cases fits : readings.memory.accessible address.toNat 8 with
        | false =>
            rw [← passed] at fits
            have halted := (fetches.lost event rest content fits).1
            rw [completes.1] at halted
            cases halted
        | true =>
            rw [← passed] at fits
            obtain ⟨_, left, stored⟩ := fetches.oldest event rest content fits
            rw [passed] at stored
            have landed :=
              readings.memory.bytesAt_store address.toNat event.toBytes
            rw [KeyEvent.length_toBytes] at landed
            rw [Trap.reply_of_frame left, ← UserMemory.carryOut_commands, stored,
              UserMemory.carryOut, UserMemory.carryOut, landed]
            exact KeyEvent.ofBytes?_toBytes event
  · rw [fetches.inboxes]
    dsimp only [Inboxes.after, Inboxes.modify]
    rw [if_pos rfl, fetches.pending]
    rfl

/-- A process understands its replies, and the screen its calls. -/
structure Understood (exec : Executive) (process : Process) (frame : Frame)
    (readings : Readings) : Prop where
  heapAlloc : ∀ size,
    (exec.invoke frame readings (.heapAlloc size)).Completes →
      exec.TellsBase process size.toNat
        (exec.invoke frame readings (.heapAlloc size))
  heapFree : ∀ base,
    (exec.invoke frame readings (.heapFree base)).Completes →
      exec.TellsRelease process base.toNat
        (exec.invoke frame readings (.heapFree base))
  readInput : ∀ address,
    (exec.invoke frame readings (.readInput address)).Completes →
      TellsEvent process readings.memory address.toNat
        (exec.invoke frame readings (.readInput address))
  screenSize : ∀ width height : UInt32,
    readings.screenSize = (width.toNat, height.toNat) →
      (exec.invoke frame readings .screenSize).Completes ∧
        Reply.size (exec.invoke frame readings .screenSize).reply =
          (width, height)
  charSize : ∀ scale width height : UInt32,
    readings.charSize scale.toNat = (width.toNat, height.toNat) →
      (exec.invoke frame readings (.charSize scale)).Completes ∧
        Reply.size (exec.invoke frame readings (.charSize scale)).reply =
          (width, height)
  /-- On a screen of the kernel's own, the size is that of the font's cell. -/
  cellSize : ∀ (screen : Screen) (scale : UInt32),
    readings.charSize = screen.charSize →
      (exec.invoke frame readings (.charSize scale)).Completes ∧
        ((Reply.size (exec.invoke frame readings
            (.charSize scale)).reply).1.toNat,
          (Reply.size (exec.invoke frame readings
            (.charSize scale)).reply).2.toNat) = TextScale.cell scale.toNat
  size_packed : ∀ width height : UInt32,
    Reply.size (packSize (width.toNat, height.toNat)) = (width, height)
  drawPixel : ∀ x y colour : UInt32,
    (exec.invoke frame readings (.drawPixel x y colour)).Draws
      (.pixel ⟨x.toInt32.toInt, y.toInt32.toInt⟩ colour)
  drawLine : ∀ x₀ y₀ x₁ y₁ colour : UInt32,
    (exec.invoke frame readings (.drawLine x₀ y₀ x₁ y₁ colour)).Draws
      (.line ⟨⟨x₀.toInt32.toInt, y₀.toInt32.toInt⟩,
        ⟨x₁.toInt32.toInt, y₁.toInt32.toInt⟩⟩ colour)
  fillRect : ∀ x y width height colour : UInt32,
    (exec.invoke frame readings (.fillRect x y width height colour)).Draws
      (.rectangle ⟨x.toInt32.toInt, y.toInt32.toInt, width.toNat,
        height.toNat⟩ colour)
  drawChar : ∀ (x y : UInt32) (character : UInt8) (scale colour : UInt32),
    (exec.invoke frame readings
        (.drawChar x y character scale colour)).Draws
      (.text ⟨x.toInt32.toInt, y.toInt32.toInt⟩ [character] scale.toNat
        colour)
  drawString : ∀ (x y : UInt32) (address length : UInt64)
    (scale colour : UInt32), length ≠ 0 →
      readings.memory.Encloses address.toNat (min length.toNat 256) →
        (exec.invoke frame readings
            (.drawString x y address length scale colour)).Draws
          (.text ⟨x.toInt32.toInt, y.toInt32.toInt⟩
            (readings.memory.bytesAt address.toNat (min length.toNat 256))
            scale.toNat colour)

/-- In every reachable state the process that runs understands what comes of
its calls. -/
theorem replies_understood (config : Configuration) (events : List Event)
    (process : Process)
    (current : ((boot config).run events).table.currentProcess? = some process)
    (frame : Frame) (readings : Readings) :
    ((boot config).run events).Understood process frame readings := by
  have coherent := (coherent_boot config).run events
  have rings :=
    ((coherent_boot config).posts_run (rings_boot config) events).rings
  exact {
    heapAlloc := fun size => coherent.tellsBase current size
    heapFree := fun base _ => coherent.tellsRelease current base
    readInput := fun address => coherent.tellsEvent rings current address
    screenSize := fun _ _ shown => coherent.size_screen current shown
    charSize := fun _ _ _ shown => coherent.size_character current shown
    cellSize := fun _ scale shown => coherent.size_cell current shown scale
    size_packed := Reply.size_packSize
    drawPixel := fun x y colour => coherent.draws_pixel current x y colour
    drawLine := fun x₀ y₀ x₁ y₁ colour =>
      coherent.draws_line current x₀ y₀ x₁ y₁ colour
    fillRect := fun x y width height colour =>
      coherent.draws_rectangle current x y width height colour
    drawChar := fun x y character scale colour =>
      coherent.draws_character current x y character scale colour
    drawString := fun x y _ _ scale colour nonempty encloses =>
      coherent.draws_text current x y scale colour nonempty encloses }

/-! A screen and characters so wide that the registers which tell their sizes
are negative. -/

namespace WideScreen

def config : Configuration where
  memoryBase := 0x48000000
  memorySize := 2 * pageSize
  lines := InterruptLines.unassigned
  idle := Context.zero
  exitLink := 0

def events : List Event :=
  [.spawn 0x1000 pageSize .user "painter", .start]

def devices : Readings where
  pending := none
  now := 0
  keys := []
  screenSize := (0x80000005, 3)
  charSize := fun scale => (0xffffff00 + scale, 13)
  memory := UserMemory.zeroed 0x48000000 0x2000

end WideScreen

open WideScreen in
theorem replies_understood_wide :
    ∃ process, ((boot config).run events).table.currentProcess? =
        some process ∧
      ((boot config).run events).Understood process Frame.zero devices ∧
      Reply.size (((boot config).run events).invoke Frame.zero devices
        .screenSize).reply = (0x80000005, 3) ∧
      Reply.size (((boot config).run events).invoke Frame.zero devices
        (.charSize 2)).reply = (0xffffff02, 13) := by
  have current : ((boot config).run events).table.currentProcess? =
      some ((boot config).run events).table.slots[(0 : Fin 16)] := by
    decide +kernel
  have understood :=
    replies_understood config events _ current Frame.zero devices
  exact ⟨_, current, understood, (understood.screenSize 0x80000005 3 rfl).2,
    (understood.charSize 2 0xffffff02 13 rfl).2⟩

end Executive

end Nucleus
