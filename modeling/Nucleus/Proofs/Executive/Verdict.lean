import Nucleus.Proofs.Executive.Commands
import Nucleus.Proofs.Executive.Population

/-!
Verdicts.  A call trespasses if it reaches for memory outside the window of the
processes, and then it is fatal.  It oversteps if it leads to an address that no
word can hold.  Any other call returns.
-/

namespace Nucleus

namespace UserMemory

variable {memory : UserMemory} {address length : Nat}

def Encloses (memory : UserMemory) (address length : Nat) : Prop :=
  memory.base ≤ address ∧ address + length ≤ memory.base + memory.size

theorem accessible_iff :
    memory.accessible address length = true ↔
      memory.Encloses address length := by
  simp [accessible, Encloses]

theorem Encloses.part (encloses : memory.Encloses address length)
    {offset size : Nat} (inside : offset + size ≤ length) :
    memory.Encloses (address + offset) size := by
  unfold Encloses at encloses ⊢
  omega

theorem Encloses.start (encloses : memory.Encloses address length)
    {size : Nat} (shorter : size ≤ length) : memory.Encloses address size :=
  encloses.part ((Nat.zero_add size).trans_le shorter)

end UserMemory

/-- The call reaches for memory that it may not touch, and is blamed for a
range. -/
inductive Trespasses (memory : UserMemory) (process : Process)
    (context : Context) : Syscall → BadAddress → Prop
  | print
      (outside : ¬ memory.Encloses (context.argument 0).toNat
        (context.argument 1).toNat) :
      Trespasses memory process context .print
        ⟨(context.argument 0).toNat, (context.argument 1).toNat⟩
  | readInput (pending : process.input.length ≠ 0)
      (outside : ¬ memory.Encloses (context.argument 0).toNat 8) :
      Trespasses memory process context .readInput
        ⟨(context.argument 0).toNat, 8⟩
  | drawString (shown : 0 < min (context.argument 3).toNat 256)
      (outside : ¬ memory.Encloses (context.argument 2).toNat
        (min (context.argument 3).toNat 256)) :
      Trespasses memory process context .drawString
        ⟨(context.argument 2).toNat, (context.argument 3).toNat⟩

/-- The call leads to an address that no word can hold: that of a region, the
end of the window, or that of a piece of text. -/
inductive Oversteps (allocator : Allocator) (memory : UserMemory)
    (process : Process) (context : Context) : Syscall → Prop
  | heapAlloc (grant : Allocator.Grant)
      (allocated : allocator.allocate (context.argument 0).toNat process.id =
        .ok grant)
      (high : maxWord < grant.region.base) :
      Oversteps allocator memory process context .heapAlloc
  | heapFree (heap : (context.argument 0).toNat ≠ process.stackBase)
      (spent : allocator.find? (context.argument 0).toNat = none)
      (above : allocator.windowBase ≤ (context.argument 0).toNat)
      (high : maxWord < allocator.windowStop) :
      Oversteps allocator memory process context .heapFree
  | print
      (encloses : memory.Encloses (context.argument 0).toNat
        (context.argument 1).toNat)
      (piece : Nat)
      (started : Executive.printChunk * piece < (context.argument 1).toNat)
      (high : maxWord < (context.argument 0).toNat +
        Executive.printChunk * piece) :
      Oversteps allocator memory process context .print

section Words

variable {allocator : Allocator} {memory : UserMemory} {process : Process}
  {context : Context} {call : Syscall} {bad : BadAddress}

theorem Oversteps.lawful
    (oversteps : Oversteps allocator memory process context call) :
    ¬ Trespasses memory process context call bad := by
  intro trespasses
  cases oversteps with
  | heapAlloc | heapFree => cases trespasses
  | print encloses =>
      cases trespasses with
      | print outside => exact outside encloses

theorem Trespasses.unique {other : BadAddress}
    (first : Trespasses memory process context call bad)
    (second : Trespasses memory process context call other) : bad = other := by
  cases first <;> cases second <;> rfl

/-! Neither depends on the context that the process has saved. -/

theorem Trespasses.congr
    (trespasses : Trespasses memory process context call bad)
    (other : Process) (input : other.input = process.input) :
    Trespasses memory other context call bad := by
  cases trespasses with
  | print outside => exact .print outside
  | readInput pending outside =>
      rw [← input] at pending
      exact .readInput pending outside
  | drawString shown outside => exact .drawString shown outside

theorem Oversteps.congr
    (oversteps : Oversteps allocator memory process context call)
    (other : Process) (id : other.id = process.id)
    (stackBase : other.stackBase = process.stackBase) :
    Oversteps allocator memory other context call := by
  cases oversteps with
  | heapAlloc grant allocated high =>
      rw [← id] at allocated
      exact .heapAlloc grant allocated high
  | heapFree heap spent above high =>
      rw [← stackBase] at heap
      exact .heapFree heap spent above high
  | print encloses piece started high =>
      exact .print encloses piece started high

/-- Windows that end within the address space leave nothing to overstep. -/
theorem not_oversteps (low : allocator.windowStop ≤ maxWord)
    (fits : memory.base + memory.size ≤ maxWord + 1) :
    ¬ Oversteps allocator memory process context call := by
  intro oversteps
  cases oversteps with
  | heapAlloc grant allocated high =>
      obtain ⟨placement, fits, rfl⟩ := Allocator.allocate_eq_ok allocated
      have inside := fits.inside
      have positive := fits.positive
      have inside : (placement.first + placement.pages) * pageSize ≤
          allocator.totalPages * pageSize :=
        Nat.mul_le_mul_right pageSize inside
      change maxWord < allocator.windowBase + placement.first * pageSize at high
      unfold Allocator.windowStop Allocator.windowSize at low
      rw [Nat.add_mul] at inside
      omega
  | heapFree heap spent above high => omega
  | print encloses piece started high =>
      unfold UserMemory.Encloses at encloses
      omega

end Words

namespace Executive

variable {exec : Executive} {memory : UserMemory} {process : Process}
  {caller : ProcessId} {effects : List Effect}

inductive Verdict (trespasses : BadAddress → Prop) (oversteps : Prop)
    (service : Service) : Prop
  | fatal (bad : BadAddress) (trespass : trespasses bad)
      (fails : service.flow =
        .error (.badUserMemory bad.address bad.length))
      (quiet : commands service.effects = [])
  | returns (lawful : ∀ bad, ¬ trespasses bad) (flow : Flow)
      (flows : service.flow = .ok flow)
      (crash_iff : .crash ∈ service.effects ↔ oversteps)

theorem not_mem_of_quiet (quiet : commands effects = []) :
    .crash ∉ effects := by
  rw [← mem_commands_iff rfl, quiet]
  exact List.not_mem_nil

theorem mem_crashIf (overflow : Bool) :
    .crash ∈ Effect.crashIf overflow ↔ overflow = true := by
  cases overflow <;> simp

theorem verdict_heapAlloc (exec : Executive) (memory : UserMemory)
    (process : Process) (context : Context) :
    Verdict (Trespasses memory process context .heapAlloc)
      (Oversteps exec.memory memory process context .heapAlloc)
      (exec.heapAlloc process.id (context.argument 0).toNat) := by
  unfold heapAlloc
  cases allocated : exec.memory.allocate (context.argument 0).toNat
      process.id with
  | error cause =>
      refine .returns nofun _ rfl
        (iff_of_false (not_mem_of_quiet rfl) fun oversteps => ?_)
      cases oversteps with
      | heapAlloc grant granted high =>
          rw [allocated] at granted
          cases granted
  | ok grant =>
      refine .returns nofun _ rfl ((mem_crashIf _).trans ?_)
      rw [Allocator.Grant.overflows, overflowsWord_iff]
      constructor
      · exact .heapAlloc grant allocated
      · intro oversteps
        cases oversteps with
        | heapAlloc granted same high =>
            obtain rfl := Except.ok.inj (allocated.symm.trans same)
            exact high

theorem verdict_heapFree
    (found : exec.table.process? caller = some process)
    (memory : UserMemory) (context : Context) :
    Verdict (Trespasses memory process context .heapFree)
      (Oversteps exec.memory memory process context .heapFree)
      (exec.heapFree caller (context.argument 0).toNat) := by
  unfold heapFree heapRelease
  rw [found]
  dsimp only
  split
  · rename_i own
    refine .returns nofun _ rfl (iff_of_false List.not_mem_nil ?_)
    intro oversteps
    cases oversteps with
    | heapFree heap => exact heap own
  · rename_i heap
    have crash_iff : Effect.crash ∈ Effect.crashIf
        (exec.memory.releaseOverflows (context.argument 0).toNat) ↔
          Oversteps exec.memory memory process context .heapFree := by
      rw [mem_crashIf]
      simp only [Allocator.releaseOverflows, Bool.and_eq_true,
        Option.isNone_iff_eq_none, decide_eq_true_eq, overflowsWord_iff]
      constructor
      · rintro ⟨⟨spent, above⟩, high⟩
        exact .heapFree heap spent above high
      · intro oversteps
        cases oversteps with
        | heapFree _ spent above high => exact ⟨⟨spent, above⟩, high⟩
    split
    · exact .returns nofun _ rfl crash_iff
    · exact .returns nofun _ rfl crash_iff

theorem printFrom_of_encloses {address length : Nat}
    (encloses : memory.Encloses address length) :
    (printFrom memory address length).2 = true ∧
      (.crash ∈ (printFrom memory address length).1 ↔
        ∃ piece, printChunk * piece < length ∧
          maxWord < address + printChunk * piece) := by
  fun_induction printFrom memory address length with
  | case1 address length some high =>
      rw [overflowsWord_iff] at high
      exact ⟨rfl, iff_of_true List.mem_cons_self ⟨0, some, high⟩⟩
  | case2 address length some low bad refused =>
      have start := encloses.start (Nat.min_le_left length printChunk)
      rw [UserMemory.read, if_pos (UserMemory.accessible_iff.mpr start)]
        at refused
      cases refused
  | case3 address length some low bytes given writes complete rest ih =>
      rw [rest] at ih
      obtain ⟨all, crash_iff⟩ := ih (encloses.part (by omega))
      refine ⟨all, ?_⟩
      rw [List.mem_cons, or_iff_right (by simp), crash_iff]
      rw [overflowsWord_iff] at low
      -- The pieces of the rest follow the one that has just been written.
      constructor
      · rintro ⟨piece, started, high⟩
        refine ⟨piece + 1, ?_, ?_⟩ <;> unfold printChunk at * <;> omega
      · rintro ⟨piece, started, high⟩
        cases piece with
        | zero => exact absurd high low
        | succ piece =>
            refine ⟨piece, ?_, ?_⟩ <;> unfold printChunk at * <;> omega
  | case4 address length none =>
      refine ⟨rfl, iff_of_false List.not_mem_nil ?_⟩
      rintro ⟨piece, started, _⟩
      omega

theorem verdict_print (exec : Executive) (memory : UserMemory)
    (process : Process) (context : Context) :
    Verdict (Trespasses memory process context .print)
      (Oversteps exec.memory memory process context .print)
      (exec.print memory (context.argument 0).toNat
        (context.argument 1).toNat) := by
  by_cases encloses : memory.Encloses (context.argument 0).toNat
      (context.argument 1).toNat
  · obtain ⟨complete, crash_iff⟩ := printFrom_of_encloses encloses
    rw [print, UserMemory.check,
      if_pos (UserMemory.accessible_iff.mpr encloses)]
    dsimp only
    rw [if_pos complete]
    refine .returns (fun bad trespasses => ?_) _ rfl (crash_iff.trans ?_)
    · cases trespasses with
      | print outside => exact outside encloses
    · constructor
      · rintro ⟨piece, started, high⟩
        exact .print encloses piece started high
      · intro oversteps
        cases oversteps with
        | print _ piece started high => exact ⟨piece, started, high⟩
  · rw [print, UserMemory.check,
      if_neg (mt UserMemory.accessible_iff.mp encloses)]
    exact .fatal _ (.print encloses) rfl rfl

theorem verdict_readInput
    (found : exec.table.process? caller = some process)
    (memory : UserMemory) (context : Context) :
    Verdict (Trespasses memory process context .readInput)
      (Oversteps exec.memory memory process context .readInput)
      (exec.readInput caller memory (context.argument 0).toNat) := by
  unfold readInput
  rw [found]
  dsimp only
  unfold KeyRing.pop?
  by_cases pending : process.input.length = 0
  · rw [if_pos pending]
    refine .returns (fun bad trespasses => ?_) _ rfl
      (iff_of_false List.not_mem_nil nofun)
    cases trespasses with
    | readInput some => exact some pending
  · rw [if_neg pending]
    dsimp only
    rw [KeyEvent.length_toBytes]
    by_cases encloses : memory.Encloses (context.argument 0).toNat 8
    · rw [if_pos (UserMemory.accessible_iff.mpr encloses)]
      refine .returns (fun bad trespasses => ?_) _ rfl
        (iff_of_false (by simp [Service.resume]) nofun)
      cases trespasses with
      | readInput _ outside => exact outside encloses
    · rw [if_neg (mt UserMemory.accessible_iff.mp encloses)]
      exact .fatal _ (.readInput pending encloses) rfl rfl

theorem verdict_drawText (exec : Executive) (memory : UserMemory)
    (process : Process) (context : Context) (corner : Point) (scale : Nat)
    (colour : UInt32) :
    Verdict (Trespasses memory process context .drawString)
      (Oversteps exec.memory memory process context .drawString)
      (exec.drawText memory corner (context.argument 2).toNat
        (context.argument 3).toNat scale colour) := by
  unfold drawText longestText
  dsimp only
  generalize reported : (if min (context.argument 3).toNat 256 <
      (context.argument 3).toNat then [Journal.textTruncated
        (context.argument 3).toNat (min (context.argument 3).toNat 256)]
    else []) = reports
  have quiet : commands reports = [] := by
    rw [← reported]
    split <;> rfl
  split
  · rename_i nothing
    refine .returns (fun bad trespasses => ?_) _ rfl
      (iff_of_false (not_mem_of_quiet quiet) nofun)
    cases trespasses with
    | drawString shown => omega
  · rename_i shown
    unfold UserMemory.read
    by_cases encloses : memory.Encloses (context.argument 2).toNat
        (min (context.argument 3).toNat 256)
    · rw [if_pos (UserMemory.accessible_iff.mpr encloses)]
      refine .returns (fun bad trespasses => ?_) _ rfl
        (iff_of_false ?_ nofun)
      · cases trespasses with
        | drawString _ outside => exact outside encloses
      · intro member
        rcases List.mem_append.mp member with early | late
        · exact not_mem_of_quiet quiet early
        · exact absurd (List.mem_singleton.mp late) nofun
    · rw [if_neg (mt UserMemory.accessible_iff.mp encloses)]
      exact .fatal _ (.drawString (Nat.pos_of_ne_zero shown) encloses) rfl
        quiet

theorem verdict_sleep (exec : Executive) (memory : UserMemory)
    (process : Process) (context : Context) (caller : ProcessId)
    (now : Nat) :
    Verdict (Trespasses memory process context .sleep)
      (Oversteps exec.memory memory process context .sleep)
      (exec.sleep caller now (context.argument 0).toNat) := by
  unfold sleep
  split
  · exact .returns nofun _ rfl (iff_of_false List.not_mem_nil nofun)
  · dsimp only
    split
    · exact .returns nofun _ rfl (iff_of_false (not_mem_of_quiet rfl) nofun)
    · rename_i queue inserted
      refine .returns nofun _ rfl (iff_of_false ?_ nofun)
      rw [← mem_commands_iff rfl, commands_append]
      cases queue.next? with
      | none => exact List.not_mem_nil
      | some deadline =>
          intro member
          exact absurd (List.mem_singleton.mp member) nofun

theorem verdict_stop (exec : Executive) (memory : UserMemory)
    (process : Process) (context : Context) (caller : ProcessId) :
    Verdict (Trespasses memory process context .stop)
      (Oversteps exec.memory memory process context .stop)
      (exec.stop caller) := by
  unfold stop
  split
  · rename_i after reports ended
    exact .returns nofun _ rfl
      (iff_of_false (not_mem_of_quiet (commands_terminate ended)) nofun)
  · exact .returns nofun _ rfl (iff_of_false (not_mem_of_quiet rfl) nofun)

/-- A call is fatal if it trespasses, and otherwise it returns. -/
theorem verdict_perform
    (found : exec.table.process? caller = some process)
    (readings : Readings) (context : Context) (call : Syscall) :
    Verdict (Trespasses readings.memory process context call)
      (Oversteps exec.memory readings.memory process context call)
      (exec.perform readings caller context call) := by
  obtain rfl := ProcessTable.id_of_process? found
  cases call with
  | heapAlloc => exact verdict_heapAlloc exec readings.memory process context
  | heapFree => exact verdict_heapFree found readings.memory context
  | print => exact verdict_print exec readings.memory process context
  | readInput => exact verdict_readInput found readings.memory context
  | drawString =>
      exact verdict_drawText exec readings.memory process context _ _ _
  | sleep => exact verdict_sleep exec readings.memory process context _ _
  | stop => exact verdict_stop exec readings.memory process context _
  | clear | drawPixel | drawLine | fillRect | drawChar =>
      refine .returns nofun _ rfl (iff_of_false ?_ nofun)
      intro member
      exact absurd (List.mem_singleton.mp member) nofun
  | screenSize | charSize | yield | uptime =>
      exact .returns nofun _ rfl (iff_of_false List.not_mem_nil nofun)

end Executive

end Nucleus
