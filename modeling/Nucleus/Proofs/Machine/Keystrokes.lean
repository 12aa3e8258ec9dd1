import Nucleus.Machine.Kernel
import Nucleus.Proofs.Device.Reception
import Nucleus.Proofs.Executive.Delivery

/-!
Keystrokes.  An interrupt of the serial line empties the port, and whoever has
the focus gets the keystrokes, in the order in which their characters came.  The
console stays silent meanwhile: everything that is reported about input is too
verbose for it.
-/

namespace Nucleus

/-- A report that no console shows. -/
def Effect.IsTrace (effect : Effect) : Prop :=
  ∃ record, effect = .report record ∧ record.level = .trace

namespace Board

theorem perform_trace (board : Board) {effect : Effect}
    (trace : effect.IsTrace) : board.perform effect = board := by
  obtain ⟨record, rfl, verbose⟩ := trace
  have hidden : Log.consoleThreshold.admits record.level = false := by
    rw [verbose]
    rfl
  rw [perform, log, hidden, if_neg]
  simp

theorem performAll_trace (board : Board) {effects : List Effect}
    (trace : ∀ effect ∈ effects, effect.IsTrace) :
    Hardware.performAll board effects = board := by
  induction effects with
  | nil => rfl
  | cons effect rest ih =>
      obtain ⟨first, later⟩ := List.forall_mem_cons.mp trace
      rw [Hardware.performAll_cons]
      exact (congrArg (Hardware.performAll · rest)
        (board.perform_trace first)).trans (ih later)

theorem performAll_input (board : Board) {interrupt : Nat}
    (regular : interrupt < firstReservedInterrupt) {reports : List Effect}
    (trace : ∀ effect ∈ reports, effect.IsTrace) :
    Hardware.performAll board
        (.acknowledge interrupt :: .drainInput :: reports) =
      { board with
        controller := board.controller.command
          InterruptController.endRegister (UInt32.ofNat interrupt)
        serial := board.serial.drainKeys.2 } := by
  have acknowledged : board.perform (.acknowledge interrupt) =
      { board with
        controller := board.controller.command
          InterruptController.endRegister (UInt32.ofNat interrupt) } := by
    rw [perform, acknowledge, InterruptController.finish?,
      if_neg (Nat.not_le.mpr regular)]
  rw [Hardware.performAll_cons, Hardware.performAll_cons,
    performAll_trace _ trace]
  change (board.perform (.acknowledge interrupt)).perform .drainInput = _
  rw [acknowledged]
  rfl

end Board

theorem Router.regular_of_route {router : Router} {interrupt : Nat}
    (routed : router.route interrupt = .input) :
    interrupt < firstReservedInterrupt := by
  by_contra reserved
  rw [route, if_pos (Nat.not_lt.mp reserved)] at routed
  cases routed

theorem Board.exists_claimed {board : Board} {interrupt : Nat}
    (pending : board.controller.claim.1 = some interrupt) :
    ∃ claimed, Hardware.claim board = (some interrupt, claimed) ∧
      claimed.serial = board.serial ∧ claimed.crashed = board.crashed :=
  ⟨{ board with controller := board.controller.claim.2 },
    congrArg (·, { board with controller := board.controller.claim.2 }) pending,
    rfl, rfl⟩

theorem Computer.interrupt_eq (computer : Computer Board)
    {pending : Option Nat} {machine : Board}
    (claims : Hardware.claim computer.machine = (pending, machine)) :
    computer.interrupt.exec = (computer.exec.handleInterrupt computer.frame
        (Hardware.readings machine pending)).exec ∧
      computer.interrupt.machine = Hardware.performAll machine
        (computer.exec.handleInterrupt computer.frame
          (Hardware.readings machine pending)).effects := by
  rw [interrupt, claims]
  exact ⟨rfl, rfl⟩

namespace Executive

variable {exec : Executive} {interrupt : Nat}

theorem trace_deliver (exec : Executive) (event : KeyEvent) :
    ∀ effect ∈ (exec.deliver event).2, effect.IsTrace := by
  unfold deliver
  cases exec.table.deliver? event with
  | none => exact List.forall_mem_singleton.mpr ⟨_, rfl, rfl⟩
  | some delivery =>
      dsimp only
      split
      · exact List.forall_mem_singleton.mpr ⟨_, rfl, rfl⟩
      · exact List.forall_mem_nil _

theorem trace_deliverAll (exec : Executive) (events : List KeyEvent) :
    ∀ effect ∈ (exec.deliverAll events).2, effect.IsTrace := by
  induction events generalizing exec with
  | nil => exact List.forall_mem_nil _
  | cons event rest ih =>
      rw [deliverAll, List.forall_mem_append]
      exact ⟨trace_deliver exec event, ih _⟩

theorem handleInterrupt_of_input (routed : exec.router.route interrupt = .input)
    (frame : Frame) {readings : Readings}
    (pending : readings.pending = some interrupt) :
    (exec.handleInterrupt frame readings).exec =
        ((exec.capture frame.context).deliverAll readings.keys).1 ∧
      (exec.handleInterrupt frame readings).effects =
        .acknowledge interrupt :: .drainInput ::
          ((exec.capture frame.context).deliverAll readings.keys).2 := by
  rw [← router_capture exec frame.context] at routed
  rw [exec_handleInterrupt, effects_handleInterrupt, pending]
  dsimp only
  rw [dispatchInterrupt, routed]
  exact ⟨rfl, rfl⟩

structure Typed (exec : Executive) (frame : Frame) (board : Board)
    (after : Computer Board) : Prop where
  handed : after.exec = ((exec.capture frame.context).deliverAll
    (board.serial.received.filterMap SerialPort.keystroke?)).1
  /-- Whoever has the focus finds them behind what was there before. -/
  inboxes : after.exec.table.inboxes = exec.table.inboxes.afterAll
    ((board.serial.received.filterMap SerialPort.keystroke?).map .typed)
  drained : board.serial.Drained after.machine.serial
  cleared_once : after.machine.receiveClears = board.receiveClears + 1
  crashed : after.machine.crashed = board.crashed

theorem Coherent.typed (coherent : exec.Coherent)
    (rings : exec.table.RingsSound)
    (routed : exec.router.route interrupt = .input) (frame : Frame)
    {board : Board} (pending : board.controller.claim.1 = some interrupt) :
    exec.Typed frame board (Computer.interrupt ⟨exec, frame, board⟩) := by
  obtain ⟨claimed, claims, serial, crashed⟩ := board.exists_claimed pending
  obtain ⟨left, machine⟩ :=
    Computer.interrupt_eq ⟨exec, frame, board⟩ claims
  -- From here on everything is said of the readings of the claimed board.
  generalize shown : Hardware.readings claimed (some interrupt) = readings
    at left machine
  have routes : readings.pending = some interrupt := by
    rw [← shown]
    rfl
  have keys : readings.keys =
      board.serial.received.filterMap SerialPort.keystroke? := by
    rw [← shown, ← serial]
    exact claimed.serial.drainKeys_eq.1
  obtain ⟨delivered, effects⟩ :=
    handleInterrupt_of_input routed frame routes
  rw [effects, Board.performAll_input _ (Router.regular_of_route routed)
    (trace_deliverAll _ _)] at machine
  have posts := coherent.posts_handleInterrupt rings frame readings
  rw [happenings, routed?, routes, Option.map_some, routed, if_pos rfl, keys]
    at posts
  have drained : board.serial.Drained
      (Computer.interrupt ⟨exec, frame, board⟩).machine.serial := by
    rw [machine, ← serial]
    exact claimed.serial.drained_drainKeys
  constructor
  · rw [left, delivered, keys]
  · rw [left]
    exact posts.inboxes
  · exact drained
  · rw [Board.receiveClears, drained.cleared, List.length_append]
    rfl
  · rw [machine]
    exact crashed

/-- In every reachable state an interrupt of the serial line empties the port,
whatever waits there and whoever has the focus. -/
theorem keystrokes_delivered (config : Configuration) (events : List Event)
    (frame : Frame) {board : Board} {interrupt : Nat}
    (pending : board.controller.claim.1 = some interrupt)
    (routed : ((boot config).run events).router.route interrupt = .input) :
    ((boot config).run events).Typed frame board
      (Computer.interrupt ⟨(boot config).run events, frame, board⟩) := by
  have coherent := coherent_boot config
  have posts := coherent.posts_run (rings_boot config) events
  exact (coherent.run events).typed posts.rings routed frame pending

/-! Three words wait at a board that has just booted: a key that came with a
line error, a character without a key, and another key. -/

namespace ThreeWords

def config : Configuration where
  memoryBase := 0x48000000
  memorySize := 2 * pageSize
  lines := Platform.qemuVirt.lines
  idle := Context.zero
  exitLink := 0

def events : List Event :=
  [.spawn 0x1000 pageSize .user "reader", .start, .focus ⟨1⟩]

def board : Board :=
  (Kernel.bootBoard (UserMemory.zeroed 0x48000000 0x2000) false).raise 33
    |>.arrive [0x161, 0x80, 0x62]

end ThreeWords

open ThreeWords in
theorem keystrokes_delivered_despite_errors :
    board.controller.claim.1 = some 33 ∧
      ((boot config).run events).router.route 33 = .input ∧
      ((boot config).run events).Typed Frame.zero board
        (Computer.interrupt ⟨(boot config).run events, Frame.zero, board⟩) ∧
      board.serial.received.filterMap SerialPort.keystroke? =
        [.press 0 KeyEvent.keyA, .press 0 (KeyEvent.keyA + 1)] := by
  have pending : board.controller.claim.1 = some 33 := by rfl
  have routed : ((boot config).run events).router.route 33 = .input := by
    decide +kernel
  exact ⟨pending, routed,
    keystrokes_delivered config events Frame.zero pending routed, by decide⟩

end Executive

end Nucleus
