import Nucleus.Machine.Bench
import Nucleus.Proofs.Executive.Delivery
import Nucleus.Proofs.Syscall.Encoding

/-!
Invocations.  The trap of a call that returns at once leaves its value in the
result register of the caller.  What the caller asks to have drawn is drawn from
the very values that it passed, and the sizes that it asks for are those of the
screen.
-/

namespace Nucleus

def Frame.calling (frame : Frame) (invocation : Invocation) : Frame :=
  { frame with
    context := frame.context.setArguments invocation.arguments
    syndrome := Syndrome.ofCall invocation.call.number }

theorem Frame.argument_calling (frame : Frame) (invocation : Invocation)
    (index : Fin 6) :
    (frame.calling invocation).context.argument index =
      invocation.arguments[index.val]?.getD (frame.context.argument index) :=
  Context.argument_setArguments _ _ _

def Trap.reply (trap : Trap) : UInt64 :=
  trap.frame.context.result

theorem Trap.reply_of_frame {trap : Trap} {frame : Frame} {context : Context}
    {value : UInt64}
    (left : trap.frame = frame.resume (context.setResult value)) :
    trap.reply = value := by
  rw [reply, left, Frame.context_resume, Context.result_setResult]

/-- The trap has been dealt with, and the processor goes on. -/
def Trap.Completes (trap : Trap) : Prop :=
  trap.fatal = none ∧ .crash ∉ trap.effects

/-- Of all devices only the screen is told anything, and nothing else than to
draw this. -/
def Trap.Draws (trap : Trap) (drawing : Drawing) : Prop :=
  trap.Completes ∧ commands trap.effects = [.draw drawing]

def UserMemory.carryOut (memory : UserMemory) : List Effect → UserMemory
  | [] => memory
  | .store address bytes :: rest => (memory.store address bytes).carryOut rest
  | _ :: rest => memory.carryOut rest

theorem UserMemory.carryOut_commands (memory : UserMemory)
    (effects : List Effect) :
    memory.carryOut (commands effects) = memory.carryOut effects := by
  induction effects generalizing memory with
  | nil => rfl
  | cons effect rest ih =>
      cases effect <;> exact ih _

theorem Bench.memory_performAll (bench : Bench) (effects : List Effect) :
    (Hardware.performAll bench effects).memory =
      bench.memory.carryOut effects := by
  induction effects generalizing bench with
  | nil => rfl
  | cons effect rest ih =>
      rw [Hardware.performAll_cons, ih]
      cases effect with
      | report record =>
          change (Bench.perform bench (.report record)).memory.carryOut rest = _
          unfold Bench.perform
          dsimp only
          split <;> rfl
      | _ => rfl

/-- Magnified as far as it may be, a character still is no larger than a word
can say. -/
theorem Screen.exists_charSize (screen : Screen) (scale : Nat) :
    ∃ width height : UInt32,
      screen.charSize scale = (width.toNat, height.toNat) := by
  have small : TextScale.clamp scale ≤ 16 := Nat.min_le_right _ _
  have large : 13 * 16 < UInt32.size := by decide
  refine ⟨UInt32.ofNat (screen.charSize scale).1,
    UInt32.ofNat (screen.charSize scale).2, ?_⟩
  unfold Screen.charSize TextScale.cell Font.cellWidth Font.cellHeight
  rw [UInt32.toNat_ofNat_of_lt' (by omega),
    UInt32.toNat_ofNat_of_lt' (by omega)]

namespace Executive

variable {exec : Executive} {frame : Frame} {readings : Readings}
  {process : Process} {invocation : Invocation} {value : UInt64}

def invoke (exec : Executive) (frame : Frame) (readings : Readings)
    (invocation : Invocation) : Trap :=
  exec.handleSynchronous (frame.calling invocation) readings

theorem calls_calling (current : exec.table.currentProcess? = some process)
    (frame : Frame) (invocation : Invocation) :
    exec.Calls (frame.calling invocation) process invocation.call where
  current := current
  supervisor := by
    change (Syndrome.ofCall invocation.call.number).exceptionClass = _
    cases invocation.call <;> decide
  named := by
    change (Syndrome.ofCall invocation.call.number).immediate = _
    cases invocation.call <;> decide

def serviceOf (exec : Executive) (frame : Frame) (readings : Readings)
    (process : Process) (invocation : Invocation) : Service :=
  exec.service (frame.calling invocation) readings process invocation.call

/-- A call that returns at once ends with its value in the result register. -/
theorem Coherent.reply_eq (coherent : exec.Coherent)
    (current : exec.table.currentProcess? = some process)
    (resumes : (exec.serviceOf frame readings process invocation).flow =
      .ok (.resume value)) :
    (exec.invoke frame readings invocation).fatal = none ∧
    (exec.invoke frame readings invocation).reply = value ∧
    commands (exec.invoke frame readings invocation).effects =
      commands (exec.serviceOf frame readings process invocation).effects ∧
    (exec.invoke frame readings invocation).exec =
      (exec.serviceOf frame readings process invocation).exec.setResult
        process.id value := by
  have returns :=
    coherent.returns (calls_calling current frame invocation) resumes
  exact ⟨returns.fatal, Trap.reply_of_frame returns.frame_eq,
    returns.commands_eq, returns.exec_eq⟩

theorem Coherent.completes (coherent : exec.Coherent)
    (current : exec.table.currentProcess? = some process)
    {after : Executive} {effects : List Effect}
    (served : exec.serviceOf frame readings process invocation =
      Service.resume after effects value)
    (sound : .crash ∉ effects) :
    (exec.invoke frame readings invocation).Completes := by
  have replied := coherent.reply_eq current (congrArg Service.flow served)
  refine ⟨replied.1, ?_⟩
  rw [← mem_commands_iff rfl, replied.2.2.1, served, mem_commands_iff rfl]
  exact sound

theorem Coherent.draws (coherent : exec.Coherent)
    (current : exec.table.currentProcess? = some process)
    {after : Executive} {effects : List Effect} {drawing : Drawing}
    (served : exec.serviceOf frame readings process invocation =
      Service.resume after effects value)
    (told : commands effects = [.draw drawing]) :
    (exec.invoke frame readings invocation).Draws drawing := by
  have replied := coherent.reply_eq current (congrArg Service.flow served)
  refine ⟨coherent.completes current served ?_, ?_⟩
  · rw [← mem_commands_iff rfl, told, List.mem_singleton]
    exact Effect.noConfusion
  · rw [replied.2.2.1, served]
    exact told

theorem Coherent.draws_pixel (coherent : exec.Coherent)
    (current : exec.table.currentProcess? = some process)
    (x y colour : UInt32) :
    (exec.invoke frame readings (.drawPixel x y colour)).Draws
      (.pixel ⟨x.toInt32.toInt, y.toInt32.toInt⟩ colour) := by
  have served : exec.serviceOf frame readings process
      (.drawPixel x y colour) = Service.resume
        (exec.capture (frame.calling (.drawPixel x y colour)).context)
        [.draw (.pixel ⟨x.toInt32.toInt, y.toInt32.toInt⟩ colour)] 0 := by
    simp [serviceOf, service, perform, pointAt, Frame.argument_calling,
      Invocation.drawPixel, coordinate_toUInt64]
  exact coherent.draws current served rfl

theorem Coherent.draws_line (coherent : exec.Coherent)
    (current : exec.table.currentProcess? = some process)
    (x₀ y₀ x₁ y₁ colour : UInt32) :
    (exec.invoke frame readings (.drawLine x₀ y₀ x₁ y₁ colour)).Draws
      (.line ⟨⟨x₀.toInt32.toInt, y₀.toInt32.toInt⟩,
        ⟨x₁.toInt32.toInt, y₁.toInt32.toInt⟩⟩ colour) := by
  have served : exec.serviceOf frame readings process
      (.drawLine x₀ y₀ x₁ y₁ colour) = Service.resume
        (exec.capture (frame.calling (.drawLine x₀ y₀ x₁ y₁ colour)).context)
        [.draw (.line ⟨⟨x₀.toInt32.toInt, y₀.toInt32.toInt⟩,
          ⟨x₁.toInt32.toInt, y₁.toInt32.toInt⟩⟩ colour)] 0 := by
    simp [serviceOf, service, perform, pointAt, Frame.argument_calling,
      Invocation.drawLine, coordinate_toUInt64]
  exact coherent.draws current served rfl

theorem Coherent.draws_rectangle (coherent : exec.Coherent)
    (current : exec.table.currentProcess? = some process)
    (x y width height colour : UInt32) :
    (exec.invoke frame readings (.fillRect x y width height colour)).Draws
      (.rectangle ⟨x.toInt32.toInt, y.toInt32.toInt, width.toNat,
        height.toNat⟩ colour) := by
  have served : exec.serviceOf frame readings process
      (.fillRect x y width height colour) = Service.resume
        (exec.capture
          (frame.calling (.fillRect x y width height colour)).context)
        [.draw (.rectangle ⟨x.toInt32.toInt, y.toInt32.toInt, width.toNat,
          height.toNat⟩ colour)] 0 := by
    simp [serviceOf, service, perform, pointAt, Frame.argument_calling,
      Invocation.fillRect, coordinate_toUInt64]
  exact coherent.draws current served rfl

theorem Coherent.draws_character (coherent : exec.Coherent)
    (current : exec.table.currentProcess? = some process)
    (x y : UInt32) (character : UInt8) (scale colour : UInt32) :
    (exec.invoke frame readings
        (.drawChar x y character scale colour)).Draws
      (.text ⟨x.toInt32.toInt, y.toInt32.toInt⟩ [character] scale.toNat
        colour) := by
  have served : exec.serviceOf frame readings process
      (.drawChar x y character scale colour) = Service.resume
        (exec.capture
          (frame.calling (.drawChar x y character scale colour)).context)
        [.draw (.text ⟨x.toInt32.toInt, y.toInt32.toInt⟩ [character]
          scale.toNat colour)] 0 := by
    simp [serviceOf, service, perform, pointAt, Frame.argument_calling,
      Invocation.drawChar, coordinate_toUInt64]
  exact coherent.draws current served rfl

theorem drawText_of_encloses (exec : Executive) {memory : UserMemory}
    {address length : Nat} (nonempty : length ≠ 0)
    (encloses : memory.Encloses address (min length longestText))
    (corner : Point) (scale : Nat) (colour : UInt32) :
    ∃ reports, commands reports = [] ∧
      exec.drawText memory corner address length scale colour =
        Service.resume exec
          (reports ++ [.draw (.text corner
            (memory.bytesAt address (min length longestText)) scale colour)])
          0 := by
  have shown : min length longestText ≠ 0 := by
    unfold longestText
    omega
  refine ⟨if min length longestText < length then
    [Journal.textTruncated length (min length longestText)] else [], ?_, ?_⟩
  · split <;> rfl
  · unfold drawText
    dsimp only
    rw [if_neg shown, UserMemory.read,
      if_pos (UserMemory.accessible_iff.mpr encloses)]

theorem Coherent.draws_text (coherent : exec.Coherent)
    (current : exec.table.currentProcess? = some process)
    (x y : UInt32) {address length : UInt64} (scale colour : UInt32)
    (nonempty : length ≠ 0)
    (encloses : readings.memory.Encloses address.toNat
      (min length.toNat longestText)) :
    (exec.invoke frame readings
        (.drawString x y address length scale colour)).Draws
      (.text ⟨x.toInt32.toInt, y.toInt32.toInt⟩
        (readings.memory.bytesAt address.toNat (min length.toNat longestText))
        scale.toNat colour) := by
  have counted : length.toNat ≠ 0 := fun zero =>
    nonempty (UInt64.toNat_inj.mp zero)
  obtain ⟨reports, quiet, drawn⟩ := drawText_of_encloses
    (exec.capture
      (frame.calling (.drawString x y address length scale colour)).context)
    counted encloses ⟨x.toInt32.toInt, y.toInt32.toInt⟩ scale.toNat colour
  have served : exec.serviceOf frame readings process
      (.drawString x y address length scale colour) =
        (exec.capture (frame.calling
          (.drawString x y address length scale colour)).context).drawText
          readings.memory ⟨x.toInt32.toInt, y.toInt32.toInt⟩ address.toNat
          length.toNat scale.toNat colour := by
    simp [serviceOf, service, perform, pointAt, Frame.argument_calling,
      Invocation.drawString, coordinate_toUInt64]
  refine coherent.draws current (served.trans drawn) ?_
  rw [commands_append, quiet]
  rfl

theorem Coherent.tells_size (coherent : exec.Coherent)
    (current : exec.table.currentProcess? = some process)
    {after : Executive} {size : Nat × Nat} {width height : UInt32}
    (served : exec.serviceOf frame readings process invocation =
      Service.resume after [] (packSize size))
    (shown : size = (width.toNat, height.toNat)) :
    (exec.invoke frame readings invocation).Completes ∧
      Reply.size (exec.invoke frame readings invocation).reply =
        (width, height) := by
  have replied := coherent.reply_eq current (congrArg Service.flow served)
  refine ⟨coherent.completes current served List.not_mem_nil, ?_⟩
  rw [replied.2.1, shown, Reply.size_packSize]

theorem Coherent.size_screen (coherent : exec.Coherent)
    (current : exec.table.currentProcess? = some process)
    {width height : UInt32}
    (shown : readings.screenSize = (width.toNat, height.toNat)) :
    (exec.invoke frame readings .screenSize).Completes ∧
      Reply.size (exec.invoke frame readings .screenSize).reply =
        (width, height) := by
  have served : exec.serviceOf frame readings process .screenSize =
      Service.resume (exec.capture (frame.calling .screenSize).context) []
        (packSize readings.screenSize) := rfl
  exact coherent.tells_size current served shown

theorem Coherent.size_character (coherent : exec.Coherent)
    (current : exec.table.currentProcess? = some process)
    {scale width height : UInt32}
    (shown : readings.charSize scale.toNat = (width.toNat, height.toNat)) :
    (exec.invoke frame readings (.charSize scale)).Completes ∧
      Reply.size (exec.invoke frame readings (.charSize scale)).reply =
        (width, height) := by
  have served : exec.serviceOf frame readings process (.charSize scale) =
      Service.resume (exec.capture (frame.calling (.charSize scale)).context)
        [] (packSize (readings.charSize scale.toNat)) := by
    simp [serviceOf, service, perform, Frame.argument_calling,
      Invocation.charSize]
  exact coherent.tells_size current served shown

theorem Coherent.size_cell (coherent : exec.Coherent)
    (current : exec.table.currentProcess? = some process) {screen : Screen}
    (shown : readings.charSize = screen.charSize) (scale : UInt32) :
    (exec.invoke frame readings (.charSize scale)).Completes ∧
      ((Reply.size (exec.invoke frame readings
          (.charSize scale)).reply).1.toNat,
        (Reply.size (exec.invoke frame readings
          (.charSize scale)).reply).2.toNat) = TextScale.cell scale.toNat := by
  obtain ⟨width, height, fits⟩ := screen.exists_charSize scale.toNat
  have told : readings.charSize scale.toNat =
      (width.toNat, height.toNat) := by
    rw [shown, fits]
  obtain ⟨completes, sized⟩ :
      (exec.invoke frame readings (.charSize scale)).Completes ∧
        Reply.size (exec.invoke frame readings (.charSize scale)).reply =
          (width, height) :=
    coherent.size_character current told
  refine ⟨completes, ?_⟩
  rw [sized]
  exact fits.symm

end Executive

end Nucleus
