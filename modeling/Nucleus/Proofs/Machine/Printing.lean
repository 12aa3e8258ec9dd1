import Nucleus.Machine.Board
import Nucleus.Proofs.Device.Transmission
import Nucleus.Proofs.Executive.Verdict

namespace Nucleus

namespace UserMemory

variable {memory : UserMemory} {address length : Nat}

theorem bytesAt_add (memory : UserMemory) (address first second : Nat) :
    memory.bytesAt address (first + second) =
      memory.bytesAt address first ++
        memory.bytesAt (address + first) second := by
  have later : (fun offset => memory.byteAt (address + first + offset)) =
      (fun offset => memory.byteAt (address + offset)) ∘ (first + ·) :=
    funext fun offset => congrArg _ (Nat.add_assoc address first offset)
  rw [bytesAt, bytesAt, bytesAt, List.range_add, List.map_append, List.map_map,
    later]

theorem check_of_encloses (encloses : memory.Encloses address length) :
    memory.check address length = .ok () :=
  if_pos (accessible_iff.mpr encloses)

theorem check_of_not_encloses (outside : ¬ memory.Encloses address length) :
    memory.check address length = .error ⟨address, length⟩ :=
  if_neg (mt accessible_iff.mp outside)

theorem check_eq_ok_iff :
    memory.check address length = .ok () ↔
      memory.Encloses address length := by
  refine ⟨fun accepted => ?_, check_of_encloses⟩
  by_contra outside
  rw [check_of_not_encloses outside] at accepted
  cases accepted

theorem read_of_encloses (encloses : memory.Encloses address length) :
    memory.read address length = .ok (memory.bytesAt address length) :=
  if_pos (accessible_iff.mpr encloses)

/-- In a window that ends within the address space a range is out of bounds if
it starts too low, ends too high, or wraps around. -/
theorem not_encloses_iff (low : memory.base + memory.size ≤ maxWord) :
    ¬ memory.Encloses address length ↔
      address < memory.base ∨ memory.base + memory.size < address + length ∨
        maxWord < address + length := by
  unfold Encloses
  omega

end UserMemory

namespace Board

/-- Between the two a text, and nothing else, has gone out over the serial port,
by way of its data register. -/
structure Shows (board : Board) (text : List UInt8) (after : Board) :
    Prop where
  sends : board.serial.Sends (SerialPort.onWire text) after.serial
  written : ∀ offset, after.serial.trace.written "" offset =
    board.serial.trace.written "" offset ++
      if offset = SerialPort.dataRegister then
        (SerialPort.onWire text).map UInt8.toUInt32
      else []

theorem shows_write (board : Board) (text : List UInt8) :
    board.Shows text (board.write text) :=
  have sends := SerialPort.sends_putBytes board.serial text
  ⟨sends, sends.written⟩

theorem performAll_write (board : Board) (pieces : List (List UInt8)) :
    Hardware.performAll board (pieces.map .write) =
      board.write pieces.flatten := by
  induction pieces generalizing board with
  | nil => rfl
  | cons piece rest ih =>
      rw [List.map_cons, Hardware.performAll_cons, ih, List.flatten_cons]
      change (board.write piece).write rest.flatten = _
      rw [write, write, write, SerialPort.putBytes_append]

end Board

namespace Executive

variable {exec : Executive} {memory : UserMemory} {address length : Nat}

theorem printFrom_eq (low : memory.base + memory.size ≤ maxWord)
    (encloses : memory.Encloses address length) :
    ∃ pieces : List (List UInt8),
      printFrom memory address length = (pieces.map .write, true) ∧
        pieces.flatten = memory.bytesAt address length := by
  fun_induction printFrom memory address length with
  | case1 address length some high =>
      rw [overflowsWord_iff] at high
      unfold UserMemory.Encloses at encloses
      omega
  | case2 address length some fits bad refused =>
      have start := encloses.start (Nat.min_le_left length printChunk)
      rw [UserMemory.read_of_encloses start] at refused
      cases refused
  | case3 address length some fits bytes given writes complete rest ih =>
      have start := encloses.start (Nat.min_le_left length printChunk)
      rw [UserMemory.read_of_encloses start] at given
      obtain rfl := Except.ok.inj given
      obtain ⟨pieces, printed, content⟩ := ih (encloses.part (by omega))
      obtain ⟨rfl, rfl⟩ := Prod.mk.inj (rest.symm.trans printed)
      refine ⟨_ :: pieces, rfl, ?_⟩
      rw [List.flatten_cons, content, ← UserMemory.bytesAt_add,
        Nat.add_sub_of_le (Nat.min_le_left length printChunk)]
  | case4 address length none =>
      obtain rfl : length = 0 := by omega
      exact ⟨[], rfl, rfl⟩

structure Prints (exec : Executive) (memory : UserMemory)
    (address length : UInt64) : Prop where
  refused_iff : memory.check address.toNat length.toNat ≠ .ok () ↔
    address.toNat < memory.base ∨
      memory.base + memory.size < address.toNat + length.toNat ∨
      maxWord < address.toNat + length.toNat
  /-- A refused range is fatal, and the devices hear nothing of it. -/
  nothing : memory.check address.toNat length.toNat ≠ .ok () →
    exec.print memory address.toNat length.toNat =
      ⟨exec, [], .error (.badUserMemory address.toNat length.toNat)⟩
  /-- Wherever a piece of any other starts, its address fits in a word. -/
  room : memory.check address.toNat length.toNat = .ok () →
    ∀ done < length.toNat, overflowsWord (address.toNat + done) = false
  all : memory.check address.toNat length.toNat = .ok () →
    ∃ pieces : List (List UInt8),
      exec.print memory address.toNat length.toNat =
        Service.resume exec (pieces.map .write) length ∧
      pieces.flatten = memory.bytesAt address.toNat length.toNat ∧
      ∀ board : Board, board.Shows
        (memory.bytesAt address.toNat length.toNat)
        (Hardware.performAll board (pieces.map .write))

theorem print_all_or_nothing (exec : Executive) (memory : UserMemory)
    (low : memory.base + memory.size ≤ maxWord) (address length : UInt64) :
    exec.Prints memory address length where
  refused_iff := by
    rw [ne_eq, UserMemory.check_eq_ok_iff, UserMemory.not_encloses_iff low]
  nothing refused := by
    rw [ne_eq, UserMemory.check_eq_ok_iff] at refused
    rw [print, UserMemory.check_of_not_encloses refused]
  room accepted done short := by
    have encloses := UserMemory.check_eq_ok_iff.mp accepted
    rw [Bool.eq_false_iff, ne_eq, overflowsWord_iff, Nat.not_lt]
    exact (Nat.add_lt_add_left short _).le.trans (encloses.2.trans low)
  all accepted := by
    have encloses := UserMemory.check_eq_ok_iff.mp accepted
    obtain ⟨pieces, printed, content⟩ := printFrom_eq low encloses
    refine ⟨pieces, ?_, content, fun board => ?_⟩
    · rw [print, accepted, printed]
      dsimp only
      rw [if_pos rfl, UInt64.ofNat_toNat]
    · rw [Board.performAll_write, content]
      exact board.shows_write _

/-! A text of more than two pieces that begins with a line feed, and one that
ends a byte behind the window. -/

namespace LongText

def ram : UserMemory :=
  (UserMemory.zeroed 0x48000000 0x1000).store 0x48000000 [0x0a, 0x61]

end LongText

open LongText in
theorem print_all_or_nothing_in_pieces :
    ram.base + ram.size ≤ maxWord ∧
      Executive.initial.Prints ram 0x48000000 300 ∧
      ram.check 0x48000000 300 = .ok () ∧
      Executive.initial.Prints ram 0x48000f00 257 ∧
      ram.check 0x48000f00 257 = .error ⟨0x48000f00, 257⟩ := by
  have low : ram.base + ram.size ≤ maxWord := by decide
  exact ⟨low, print_all_or_nothing _ _ low _ _, rfl,
    print_all_or_nothing _ _ low _ _, rfl⟩

end Executive

end Nucleus
