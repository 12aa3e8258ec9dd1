import Mathlib.Logic.Function.Iterate
import Nucleus.Device.Mailbox

/-!
How long a call of the mailbox lasts.  Every wait is bounded, and so is the
time between two words that are read.  The words themselves are not counted: a
call ends unless a device makes room in time, is never silent for as long as a
wait lasts, and yet gives nothing but words that belong to others.
-/

namespace Nucleus

namespace Mailbox

structure Device (State : Type) where
  read : State → Nat → UInt32 × State
  post : State → UInt32 → State

namespace Device

variable {State : Type}

def step (device : Device State) (request : UInt32) :
    Phase × State → Phase × State
  | (phase, state) =>
      match phase.register? with
      | none => (phase, state)
      | some offset =>
          let (value, state) := device.read state offset
          let next := phase.advance request value
          (next,
            if phase.posts next then device.post state request else state)

def run (device : Device State) (request : UInt32) (start : Phase × State)
    (reads : Nat) : Phase × State :=
  (device.step request)^[reads] start

theorem run_succ (device : Device State) (request : UInt32)
    (start : Phase × State) (reads : Nat) :
    device.run request start (reads + 1) =
      device.step request (device.run request start reads) :=
  Function.iterate_succ_apply' _ _ _

theorem step_of_read {device : Device State} {request value : UInt32}
    {phase : Phase} {offset : Nat} {state after : State}
    (register : phase.register? = some offset)
    (read : device.read state offset = (value, after)) :
    device.step request (phase, state) =
      (phase.advance request value,
        if phase.posts (phase.advance request value) then
          device.post after request
        else after) := by
  simp only [step, register, read]

theorem step_over {device : Device State} {request : UInt32} {phase : Phase}
    (finished : phase.register? = none) (state : State) :
    device.step request (phase, state) = (phase, state) := by
  rw [step, finished]

theorem run_over {device : Device State} {request : UInt32} {phase : Phase}
    (finished : phase.register? = none) (state : State) (reads : Nat) :
    device.run request (phase, state) reads = (phase, state) :=
  Function.iterate_fixed (step_over finished state) reads

end Device

namespace Firmware

def device : Device Firmware :=
  ⟨Firmware.read, Firmware.post⟩

/-- Firmware meets the same driver as any other device. -/
theorem run_eq (firmware : Firmware) (request : UInt32) (phase : Phase)
    (reads : Nat) :
    firmware.run request phase reads =
      device.run request (phase, firmware) reads := by
  induction reads generalizing firmware phase with
  | zero => rfl
  | succ reads ih =>
      rw [run, Device.run, Function.iterate_succ_apply, ← Device.run,
        Device.step]
      cases register : phase.register? with
      | none => rw [Device.run_over register]
      | some offset => exact ih _ _

variable {firmware : Firmware} {request : UInt32} {phase : Phase}

theorem read_unposted (posted : firmware.posted = none) :
    ∃ trace, firmware.read statusRegister =
      (if 0 < firmware.fullReads then empty ||| full else empty,
        { firmware with fullReads := firmware.fullReads - 1, trace }) := by
  simp [read, posted]

theorem read_posted (posted : firmware.posted = some request) :
    ∃ trace, firmware.read statusRegister =
      (if 0 < firmware.emptyReads then empty else 0,
        { firmware with emptyReads := firmware.emptyReads - 1, trace }) := by
  simp [read, posted]

theorem read_stray {stray : UInt32} {rest : List UInt32}
    (strays : firmware.strays = stray :: rest) :
    ∃ trace, firmware.read readRegister =
      (stray, { firmware with strays := rest, trace }) := by
  simp [read, strays, readRegister, statusRegister]

theorem read_reply (strays : firmware.strays = [])
    (posted : firmware.posted = some request) :
    ∃ trace, firmware.read readRegister =
      (request, { firmware with trace }) := by
  simp [read, strays, posted, readRegister, statusRegister]

/-- Whether the request has been taken. -/
def Stands (firmware : Firmware) (request : UInt32) : Phase → Prop
  | .awaitingRoom _ => firmware.posted = none
  | .awaitingReply _ => firmware.posted = some request
  | .reading => firmware.posted = some request
  | .answered => True
  | .gaveUp => True

/-- Register reads that are left at most. -/
def remaining (firmware : Firmware) : Phase → Nat
  | .awaitingRoom _ =>
      firmware.fullReads + firmware.emptyReads +
        2 * firmware.strays.length + 3
  | .awaitingReply _ =>
      firmware.emptyReads + 2 * firmware.strays.length + 2
  | .reading => firmware.emptyReads + 2 * firmware.strays.length + 1
  | .answered => 0
  | .gaveUp => 0

theorem step_remaining (stands : firmware.Stands request phase)
    (going : phase.register? ≠ none) :
    (device.step request (phase, firmware)).2.Stands request
        (device.step request (phase, firmware)).1 ∧
      (device.step request (phase, firmware)).2.remaining
          (device.step request (phase, firmware)).1 <
        firmware.remaining phase := by
  cases phase with
  | awaitingRoom left =>
      obtain ⟨trace, read⟩ := read_unposted stands
      rcases Nat.eq_zero_or_pos firmware.fullReads with room | noRoom
      · rw [if_neg (by omega)] at read
        rw [Device.step_of_read rfl read, Phase.advance, if_pos (by decide)]
        refine ⟨rfl, ?_⟩
        show firmware.emptyReads + 2 * firmware.strays.length + 2 < _
        rw [remaining]
        omega
      · rw [if_pos noRoom] at read
        rw [Device.step_of_read rfl read, Phase.advance, if_neg (by decide)]
        split
        · exact ⟨trivial, Nat.succ_pos _⟩
        · refine ⟨stands, ?_⟩
          show firmware.fullReads - 1 + firmware.emptyReads +
            2 * firmware.strays.length + 3 < _
          rw [remaining]
          omega
  | awaitingReply left =>
      obtain ⟨trace, read⟩ := read_posted stands
      rcases Nat.eq_zero_or_pos firmware.emptyReads with word | noWord
      · rw [if_neg (by omega)] at read
        rw [Device.step_of_read rfl read, Phase.advance, if_pos (by decide)]
        refine ⟨stands, ?_⟩
        show firmware.emptyReads - 1 + 2 * firmware.strays.length + 1 < _
        rw [remaining]
        omega
      · rw [if_pos noWord] at read
        rw [Device.step_of_read rfl read, Phase.advance, if_neg (by decide)]
        split
        · exact ⟨trivial, Nat.succ_pos _⟩
        · refine ⟨stands, ?_⟩
          show firmware.emptyReads - 1 + 2 * firmware.strays.length + 2 < _
          rw [remaining]
          omega
  | reading =>
      cases strays : firmware.strays with
      | nil =>
          obtain ⟨trace, read⟩ := read_reply strays stands
          rw [Device.step_of_read rfl read, Phase.advance, if_pos rfl]
          exact ⟨trivial, Nat.succ_pos _⟩
      | cons stray rest =>
          obtain ⟨trace, read⟩ := read_stray strays
          rw [Device.step_of_read rfl read, Phase.advance]
          split
          · exact ⟨trivial, Nat.succ_pos _⟩
          · refine ⟨stands, ?_⟩
            show firmware.emptyReads + 2 * rest.length + 2 < _
            rw [remaining, strays, List.length_cons]
            omega
  | answered => exact absurd rfl going
  | gaveUp => exact absurd rfl going

theorem over_of_remaining_le {reads : Nat}
    (stands : firmware.Stands request phase)
    (enough : firmware.remaining phase ≤ reads) :
    (device.run request (phase, firmware) reads).1.register? = none := by
  induction reads generalizing firmware phase with
  | zero =>
      by_contra going
      have closer := (step_remaining stands going).2
      omega
  | succ reads ih =>
      by_cases finished : phase.register? = none
      · rw [Device.run_over finished]
        exact finished
      · obtain ⟨next, closer⟩ := step_remaining stands finished
        rw [Device.run, Function.iterate_succ_apply]
        exact ih next (Nat.le_of_lt_succ (Nat.lt_of_lt_of_le closer enough))

/-- The reads that a call is carried on by see it to its end. -/
theorem over_of_readLimit (fresh : firmware.posted = none) :
    (firmware.run request Phase.start firmware.readLimit).1.register? =
      none := by
  rw [run_eq]
  exact over_of_remaining_le fresh (Nat.le_succ _)

end Firmware

/-! Registers that may give anything. -/

structure Registers where
  status : Nat → UInt32
  words : Nat → UInt32

structure Reads where
  polls : Nat
  words : Nat
  deriving DecidableEq, Repr

namespace Registers

variable {registers : Registers} {request : UInt32}

def device (registers : Registers) : Device Reads where
  read reads offset :=
    if offset = statusRegister then
      (registers.status reads.polls, { reads with polls := reads.polls + 1 })
    else
      (registers.words reads.words, { reads with words := reads.words + 1 })
  post reads _ := reads

def after (registers : Registers) (request : UInt32) (reads : Nat) :
    Phase × Reads :=
  registers.device.run request (Phase.start, ⟨0, 0⟩) reads

def IsFull (registers : Registers) (poll : Nat) : Prop :=
  registers.status poll &&& full ≠ 0

def IsEmpty (registers : Registers) (poll : Nat) : Prop :=
  registers.status poll &&& empty ≠ 0

/-- The poll that finds room for the request. -/
structure Posted (registers : Registers) (posted : Nat) : Prop where
  lt : posted < pollLimit
  room : ¬ registers.IsFull posted
  full : ∀ poll < posted, registers.IsFull poll

/-- There is no room for as long as the first wait lasts. -/
def Refuses (registers : Registers) : Prop :=
  ∀ poll < pollLimit, registers.IsFull poll

/-- At some time after the request no word comes for as long as a wait
lasts. -/
def FallsSilent (registers : Registers) : Prop :=
  ∃ posted, registers.Posted posted ∧ ∃ start, posted < start ∧
    ∀ poll, start ≤ poll → poll < start + pollLimit → registers.IsEmpty poll

theorem Posted.unique {first second : Nat} (one : registers.Posted first)
    (other : registers.Posted second) : first = second := by
  rcases Nat.lt_trichotomy first second with before | same | behind
  · exact absurd (other.full first before) one.room
  · exact same
  · exact absurd (one.full second behind) other.room

theorem Posted.not_refuses {posted : Nat} (found : registers.Posted posted) :
    ¬ registers.Refuses :=
  fun refuses => found.room (refuses posted found.lt)

theorem step_awaitingRoom (left : Nat) (reads : Reads) :
    registers.device.step request (.awaitingRoom left, reads) =
      ((Phase.awaitingRoom left).advance request
          (registers.status reads.polls),
        { reads with polls := reads.polls + 1 }) := by
  rw [Device.step]
  exact congrArg _ (ite_self _)

theorem step_awaitingReply (left : Nat) (reads : Reads) :
    registers.device.step request (.awaitingReply left, reads) =
      ((Phase.awaitingReply left).advance request
          (registers.status reads.polls),
        { reads with polls := reads.polls + 1 }) := by
  rw [Device.step]
  exact congrArg _ (ite_self _)

theorem step_reading (reads : Reads) :
    registers.device.step request (.reading, reads) =
      (Phase.reading.advance request (registers.words reads.words),
        { reads with words := reads.words + 1 }) := by
  rw [Device.step]
  exact congrArg _ (ite_self _)

/-- How far a call has got that waits for its reply.  `mark` is the poll that
has ended the last wait. -/
structure Waits (registers : Registers) (request : UInt32)
    (waits posted mark : Nat) (reads : Reads) : Prop where
  found : registers.Posted posted
  marked : mark = posted ∨ posted < mark ∧ ¬ registers.IsEmpty mark
  mark_lt : mark < reads.polls
  quiet : ∀ poll, mark < poll → poll < reads.polls → registers.IsEmpty poll
  /-- So far the device has not been silent for long. -/
  lively : ∀ start, posted < start → start + pollLimit ≤ reads.polls →
    ∃ poll, start ≤ poll ∧ poll < start + pollLimit ∧
      ¬ registers.IsEmpty poll
  strays : ∀ index < reads.words, registers.words index ≠ request
  paced : mark < pollLimit * waits
  ahead : waits ≤ mark + 1

inductive Stands (registers : Registers) (request : UInt32) :
    Phase → Reads → Prop
  | awaitingRoom {left polls : Nat} (budget : left + polls = pollLimit)
      (spare : 0 < left) (full : ∀ poll < polls, registers.IsFull poll) :
      Stands registers request (.awaitingRoom left) ⟨polls, 0⟩
  | awaitingReply {left posted mark : Nat} {reads : Reads}
      (waits : registers.Waits request (reads.words + 1) posted mark reads)
      (budget : left + reads.polls = pollLimit + mark + 1) (spare : 0 < left) :
      Stands registers request (.awaitingReply left) reads
  | reading {posted mark : Nat} {reads : Reads}
      (waits : registers.Waits request (reads.words + 2) posted mark reads)
      (ended : reads.polls = mark + 1) :
      Stands registers request .reading reads
  | answered {reads : Reads} {index : Nat}
      (reply : registers.words index = request) :
      Stands registers request .answered reads
  | gaveUp {reads : Reads}
      (cause : registers.Refuses ∨ registers.FallsSilent) :
      Stands registers request .gaveUp reads

theorem pollLimit_pos : 0 < pollLimit := by decide

theorem stands_start :
    registers.Stands request Phase.start ⟨0, 0⟩ :=
  .awaitingRoom rfl pollLimit_pos
    fun _ below => (Nat.not_lt_zero _ below).elim

theorem stands_poll_room {left polls : Nat}
    (budget : left + polls = pollLimit) (spare : 0 < left)
    (full : ∀ poll < polls, registers.IsFull poll) :
    registers.Stands request
      ((Phase.awaitingRoom left).advance request (registers.status polls))
      ⟨polls + 1, 0⟩ := by
  rw [Phase.advance]
  split
  · rename_i room
    have found : registers.Posted polls :=
      ⟨by omega, not_not_intro room, full⟩
    have waits : registers.Waits request 1 polls polls ⟨polls + 1, 0⟩ := by
      refine ⟨found, .inl rfl, Nat.lt_succ_self polls, ?_, ?_, ?_, ?_, ?_⟩
      · intro poll later before
        exact absurd later (Nat.not_lt.mpr (Nat.le_of_lt_succ before))
      · intro start later within
        have := pollLimit_pos
        exact absurd later (by dsimp only at within; omega)
      · intro index below
        exact (Nat.not_lt_zero index below).elim
      · omega
      · exact Nat.succ_le_succ (Nat.zero_le polls)
    exact .awaitingReply waits (by dsimp only; omega) pollLimit_pos
  · rename_i fullNow
    have fullUpTo : ∀ poll < polls + 1, registers.IsFull poll := by
      intro poll before
      rcases Nat.lt_succ_iff_lt_or_eq.mp before with earlier | rfl
      · exact full poll earlier
      · exact fullNow
    split
    · refine .gaveUp (.inl fun poll before => fullUpTo poll ?_)
      omega
    · exact .awaitingRoom (by omega) (by omega) fullUpTo

theorem Waits.poll {left posted mark : Nat} {reads : Reads}
    (waits : registers.Waits request (reads.words + 1) posted mark reads)
    (budget : left + reads.polls = pollLimit + mark + 1) (spare : 0 < left) :
    registers.Stands request
      ((Phase.awaitingReply left).advance request
        (registers.status reads.polls))
      { reads with polls := reads.polls + 1 } := by
  have behind := waits.mark_lt
  have posted_le : posted ≤ mark := by
    rcases waits.marked with same | later <;> omega
  rw [Phase.advance]
  split
  · rename_i word
    have ready : ¬ registers.IsEmpty reads.polls := not_not_intro word
    have ended : registers.Waits request (reads.words + 2) posted reads.polls
        { reads with polls := reads.polls + 1 } := by
      refine ⟨waits.found, .inr ⟨by omega, ready⟩, Nat.lt_succ_self _, ?_, ?_,
        waits.strays, ?_, ?_⟩
      · intro poll later before
        exact absurd later (Nat.not_lt.mpr (Nat.le_of_lt_succ before))
      · intro start later within
        rcases Nat.lt_or_ge reads.polls (start + pollLimit) with last | earlier
        · exact ⟨reads.polls, by dsimp only at within; omega, last, ready⟩
        · exact waits.lively start later earlier
      · have paced := waits.paced
        rw [Nat.mul_succ]
        omega
      · exact Nat.succ_le_succ (Nat.le_trans waits.ahead behind)
    exact .reading ended rfl
  · rename_i nothing
    have quiet : ∀ poll, mark < poll → poll < reads.polls + 1 →
        registers.IsEmpty poll := by
      intro poll later before
      rcases Nat.lt_succ_iff_lt_or_eq.mp before with earlier | rfl
      · exact waits.quiet poll later earlier
      · exact nothing
    split
    · refine .gaveUp (.inr ⟨posted, waits.found, mark + 1, by omega, ?_⟩)
      intro poll since before
      exact quiet poll since (by omega)
    · have longer : registers.Waits request (reads.words + 1) posted mark
          { reads with polls := reads.polls + 1 } := by
        refine ⟨waits.found, waits.marked, Nat.lt_succ_of_lt behind, quiet, ?_,
          waits.strays, waits.paced, waits.ahead⟩
        intro start later within
        rcases Nat.lt_or_ge reads.polls (start + pollLimit) with last | earlier
        · -- The stretch reaches back to the end of the wait before.
          dsimp only at within
          rcases waits.marked with same | ⟨-, ready⟩
          · omega
          · exact ⟨mark, by omega, by omega, ready⟩
        · exact waits.lively start later earlier
      exact .awaitingReply longer (by dsimp only; omega) (by omega)

theorem Waits.read {posted mark : Nat} {reads : Reads}
    (waits : registers.Waits request (reads.words + 2) posted mark reads)
    (ended : reads.polls = mark + 1) :
    registers.Stands request
      (Phase.reading.advance request (registers.words reads.words))
      { reads with words := reads.words + 1 } := by
  rw [Phase.advance]
  split
  · rename_i reply
    exact .answered reply
  · rename_i stray
    have strays : ∀ index < reads.words + 1,
        registers.words index ≠ request := by
      intro index before
      rcases Nat.lt_succ_iff_lt_or_eq.mp before with earlier | rfl
      · exact waits.strays index earlier
      · exact stray
    have more : registers.Waits request (reads.words + 2) posted mark
        { reads with words := reads.words + 1 } :=
      ⟨waits.found, waits.marked, waits.mark_lt, waits.quiet, waits.lively,
        strays, waits.paced, waits.ahead⟩
    exact .awaitingReply more (by dsimp only; omega) pollLimit_pos

theorem Stands.step {phase : Phase} {reads : Reads}
    (stands : registers.Stands request phase reads) :
    registers.Stands request
      (registers.device.step request (phase, reads)).1
      (registers.device.step request (phase, reads)).2 := by
  cases stands with
  | awaitingRoom budget spare full =>
      rw [step_awaitingRoom]
      exact stands_poll_room budget spare full
  | awaitingReply waits budget spare =>
      rw [step_awaitingReply]
      exact waits.poll budget spare
  | reading waits ended =>
      rw [step_reading]
      exact waits.read ended
  | answered reply =>
      rw [Device.step_over rfl]
      exact .answered reply
  | gaveUp cause =>
      rw [Device.step_over rfl]
      exact .gaveUp cause

theorem stands_after (registers : Registers) (request : UInt32)
    (reads : Nat) :
    registers.Stands request (registers.after request reads).1
      (registers.after request reads).2 := by
  induction reads with
  | zero => exact stands_start
  | succ reads ih =>
      rw [after, Device.run_succ]
      exact ih.step

structure Pending (registers : Registers) (request : UInt32)
    (reads : Reads) : Prop where
  bounded : reads.polls + reads.words ≤ (pollLimit + 1) * (reads.words + 2)
  words_le : reads.words ≤ reads.polls
  strays : ∀ index < reads.words, registers.words index ≠ request
  room : pollLimit ≤ reads.polls + reads.words → ¬ registers.Refuses
  lively : ∀ posted, registers.Posted posted → ∀ start, posted < start →
    start + pollLimit ≤ reads.polls →
      ∃ poll, start ≤ poll ∧ poll < start + pollLimit ∧
        ¬ registers.IsEmpty poll

theorem Waits.pending {waits posted mark : Nat} {reads : Reads}
    (waiting : registers.Waits request waits posted mark reads)
    (bounded : reads.polls + reads.words ≤
      (pollLimit + 1) * (reads.words + 2))
    (words_lt : reads.words < waits) :
    registers.Pending request reads where
  bounded := bounded
  words_le := by
    have ahead := waiting.ahead
    have behind := waiting.mark_lt
    omega
  strays := waiting.strays
  room _ := waiting.found.not_refuses
  lively posted found start later within := by
    rw [found.unique waiting.found] at later
    exact waiting.lively start later within

theorem Stands.pending {phase : Phase} {reads : Reads}
    (stands : registers.Stands request phase reads)
    (going : phase.register? ≠ none) : registers.Pending request reads := by
  cases stands with
  | @awaitingRoom left polls budget spare full =>
      refine ⟨?_, Nat.zero_le _, ?_, ?_, ?_⟩
      · dsimp only
        omega
      · intro index below
        exact (Nat.not_lt_zero index below).elim
      · intro enough
        dsimp only at enough
        omega
      · intro posted found start later within
        have : polls ≤ posted := by
          by_contra before
          exact found.room (full posted (Nat.lt_of_not_le before))
        dsimp only at within
        omega
  | awaitingReply waits budget spare =>
      refine waits.pending ?_ (Nat.lt_succ_self _)
      have paced := waits.paced
      rw [Nat.mul_succ] at paced
      rw [Nat.mul_add, Nat.add_mul]
      omega
  | reading waits ended =>
      refine waits.pending ?_ (by omega)
      have paced := waits.paced
      rw [Nat.add_mul]
      omega
  | answered reply => exact absurd rfl going
  | gaveUp cause => exact absurd rfl going

theorem reads_after (registers : Registers) (request : UInt32)
    (reads : Nat) :
    (registers.after request reads).1.register? = none ∨
      (registers.after request reads).2.polls +
        (registers.after request reads).2.words = reads := by
  induction reads with
  | zero => exact .inr rfl
  | succ reads ih =>
      rw [after, Device.run_succ, ← after]
      revert ih
      rcases registers.after request reads with ⟨phase, counts⟩
      rintro (finished | counted)
      · exact .inl (by rw [Device.step_over finished]; exact finished)
      · dsimp only at counted
        cases phase with
        | awaitingRoom left =>
            rw [step_awaitingRoom]
            exact .inr (by dsimp only; omega)
        | awaitingReply left =>
            rw [step_awaitingReply]
            exact .inr (by dsimp only; omega)
        | reading =>
            rw [step_reading]
            exact .inr (by dsimp only; omega)
        | answered => exact .inl rfl
        | gaveUp => exact .inl rfl

/-- A call has returned, or it has been reading all the time. -/
theorem over_or_pending (registers : Registers) (request : UInt32)
    (reads : Nat) :
    (registers.after request reads).1.register? = none ∨
      registers.Pending request (registers.after request reads).2 ∧
        (registers.after request reads).2.polls +
          (registers.after request reads).2.words = reads := by
  rcases reads_after registers request reads with finished | counted
  · exact .inl finished
  · by_cases finished : (registers.after request reads).1.register? = none
    · exact .inl finished
    · exact .inr ⟨(stands_after registers request reads).pending finished, counted⟩

theorem over_of_not_pending {reads : Nat}
    (never : ∀ counts : Reads, counts.polls + counts.words = reads →
      ¬ registers.Pending request counts) :
    (registers.after request reads).1.register? = none := by
  rcases over_or_pending registers request reads with
    finished | ⟨pending, counted⟩
  · exact finished
  · exact absurd pending (never _ counted)

theorem over_of_refuses (refuses : registers.Refuses) :
    (registers.after request pollLimit).1.register? = none :=
  over_of_not_pending fun _ counted pending =>
    pending.room (Nat.le_of_eq counted.symm) refuses

theorem over_of_silent {posted start : Nat}
    (found : registers.Posted posted) (later : posted < start)
    (silent : ∀ poll, start ≤ poll → poll < start + pollLimit →
      registers.IsEmpty poll) :
    (registers.after request (2 * (start + pollLimit))).1.register? =
      none := by
  refine over_of_not_pending fun counts counted pending => ?_
  have words_le := pending.words_le
  obtain ⟨poll, since, before, ready⟩ :=
    pending.lively posted found start later (by omega)
  exact ready (silent poll since before)

theorem over_of_reply {index : Nat}
    (reply : registers.words index = request) :
    (registers.after request
      ((pollLimit + 1) * (index + 2) + 1)).1.register? = none := by
  refine over_of_not_pending fun counts counted pending => ?_
  have bounded := pending.bounded
  rw [counted] at bounded
  have more : index + 2 < counts.words + 2 :=
    Nat.lt_of_mul_lt_mul_left (Nat.lt_of_succ_le bounded)
  exact pending.strays index (by omega) reply

/-- What a call for the message at an address has returned by a number of
register reads.  `code` is what it finds in the message when its reply has
come. -/
def outcome? (registers : Registers) (address : UInt64) (code : UInt32)
    (reads : Nat) : Option Bool :=
  match request? address with
  | none => some false
  | some request =>
      match (registers.after request reads).1 with
      | .answered => some (code == success)
      | .gaveUp => some false
      | _ => none

variable {address : UInt64} {code : UInt32}

theorem outcome?_unnamed (unnamed : request? address = none) (reads : Nat) :
    registers.outcome? address code reads = some false := by
  rw [outcome?, unnamed]

theorem outcome?_isSome_iff (asked : request? address = some request)
    (reads : Nat) :
    (registers.outcome? address code reads).isSome ↔
      (registers.after request reads).1.register? = none := by
  rw [outcome?, asked]
  dsimp only
  cases (registers.after request reads).1 <;> simp [Phase.register?]

/-- Whoever returns has one of these causes. -/
theorem cause_of_over {reads : Nat}
    (finished : (registers.after request reads).1.register? = none) :
    registers.Refuses ∨ registers.FallsSilent ∨
      ∃ index, registers.words index = request := by
  have stands := stands_after registers request reads
  revert finished stands
  rcases registers.after request reads with ⟨phase, counts⟩
  rintro finished (_ | _ | _ | reply | cause)
  · cases finished
  · cases finished
  · cases finished
  · exact .inr (.inr ⟨_, reply⟩)
  · exact cause.imp_right .inl

theorem answered_of_outcome? {reads : Nat}
    (returned : registers.outcome? address code reads = some true) :
    code = success ∧
      ∃ index, some (registers.words index) = request? address := by
  cases asked : request? address with
  | none => simp [outcome?_unnamed asked] at returned
  | some request =>
      have stands := stands_after registers request reads
      rw [outcome?, asked] at returned
      dsimp only at returned
      revert returned stands
      rcases registers.after request reads with ⟨phase, counts⟩
      rintro returned (_ | _ | _ | reply | _)
      · cases returned
      · cases returned
      · cases returned
      · exact ⟨by simpa using returned, _, congrArg some reply⟩
      · cases returned

/-- A call has returned, or it has read no word of its own and not more often
than the words of others allow. -/
theorem returned_or_bounded (registers : Registers) (address : UInt64)
    (code : UInt32) (reads : Nat) :
    (registers.outcome? address code reads).isSome ∨
      ∃ words, reads ≤ (pollLimit + 1) * (words + 2) ∧
        ∀ index < words, some (registers.words index) ≠ request? address := by
  cases asked : request? address with
  | none =>
      rw [outcome?_unnamed asked]
      exact .inl rfl
  | some request =>
      rcases over_or_pending registers request reads with
        finished | ⟨pending, counted⟩
      · exact .inl ((outcome?_isSome_iff asked reads).mpr finished)
      · refine .inr ⟨_, counted ▸ pending.bounded, fun index before same => ?_⟩
        exact pending.strays index before (Option.some.inj same)

theorem returns_iff (registers : Registers) (address : UInt64)
    (code : UInt32) :
    (∃ reads, (registers.outcome? address code reads).isSome) ↔
      request? address = none ∨ registers.Refuses ∨ registers.FallsSilent ∨
        ∃ index, some (registers.words index) = request? address := by
  cases asked : request? address with
  | none =>
      refine iff_of_true ⟨0, ?_⟩ (.inl rfl)
      rw [outcome?_unnamed asked]
      rfl
  | some request =>
      simp only [outcome?_isSome_iff asked, reduceCtorEq, false_or,
        Option.some.injEq]
      constructor
      · rintro ⟨reads, finished⟩
        exact cause_of_over finished
      · rintro (refuses | ⟨posted, found, start, later, silent⟩ |
          ⟨index, reply⟩)
        · exact ⟨_, over_of_refuses refuses⟩
        · exact ⟨_, over_of_silent found later silent⟩
        · exact ⟨_, over_of_reply reply⟩

/-- A call returns exactly if its message cannot be named in a request, if the
device has no room or falls silent for as long as a wait lasts, or if the reply
is among the words that may be read.  Until then it has read one word of others
for about every wait, and it succeeds only by its own reply. -/
theorem returns_unless_strays_go_on (registers : Registers)
    (address : UInt64) (code : UInt32) :
    ((∃ reads, (registers.outcome? address code reads).isSome) ↔
      request? address = none ∨ registers.Refuses ∨ registers.FallsSilent ∨
        ∃ index, some (registers.words index) = request? address) ∧
      (∀ reads, (registers.outcome? address code reads).isSome ∨
        ∃ words, reads ≤ (pollLimit + 1) * (words + 2) ∧
          ∀ index < words,
            some (registers.words index) ≠ request? address) ∧
      ∀ reads, registers.outcome? address code reads = some true →
        code = success ∧
          ∃ index, some (registers.words index) = request? address :=
  ⟨returns_iff registers address code,
    returned_or_bounded registers address code,
    fun _ => answered_of_outcome?⟩

/-- A device that has room at once, is never silent, and gives the word zero
time after time. -/
def chatter : Registers :=
  ⟨fun _ => 0, fun _ => 0⟩

theorem chatter_never_ends :
    ¬ ∃ reads, (chatter.outcome? 0x7ffe1230 success reads).isSome := by
  rw [returns_iff]
  have named : request? 0x7ffe1230 = some 0x7ffe1238 := by decide
  rw [named]
  rintro (unnamed | refuses | ⟨posted, found, start, later, silent⟩ |
    ⟨index, reply⟩)
  · cases unnamed
  · exact refuses 0 pollLimit_pos UInt32.zero_and
  · exact silent start (Nat.le_refl start)
      (Nat.lt_add_of_pos_right pollLimit_pos) UInt32.zero_and
  · exact absurd (Option.some.inj reply) (by decide : (0 : UInt32) ≠ 0x7ffe1238)

end Registers

end Mailbox

end Nucleus
