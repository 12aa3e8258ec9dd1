import Nucleus.Proofs.Executive.Service
import Nucleus.Proofs.Executive.Sleep
import Nucleus.Proofs.Executive.Verdict

/-!
Judgement.  Why a synchronous trap is fatal can be told from the frame, from
the process that runs and from what it may touch, before anything is done; and
a fatal trap has done nothing.
-/

namespace Nucleus

/-- The low bits of the syndrome: the number of a supervisor call. -/
def Syndrome.immediate (syndrome : Syndrome) : UInt16 :=
  syndrome.raw.toUInt16

theorem Syndrome.callNumber?_eq (syndrome : Syndrome) :
    syndrome.callNumber? =
      if syndrome.exceptionClass = ExceptionClass.supervisorCall then
        some syndrome.immediate
      else none := by
  have wide : (0x1ffffff : UInt64).toNat = 2 ^ 25 - 1 := rfl
  have narrow : (0xffff : UInt32).toNat = 2 ^ 16 - 1 := rfl
  have masked :
      (syndrome.specific &&& 0xffff).toUInt16 = syndrome.immediate := by
    apply UInt16.toNat_inj.mp
    rw [specific, immediate, UInt32.toNat_toUInt16, UInt32.toNat_and, narrow,
      Nat.and_two_pow_sub_one_eq_mod, UInt64.toNat_toUInt32, UInt64.toNat_and,
      wide, Nat.and_two_pow_sub_one_eq_mod, UInt64.toNat_toUInt16]
    omega
  rw [callNumber?, masked]

theorem Syscall.ofNumber?_eq_none_iff {number : UInt16} :
    Syscall.ofNumber? number = none ↔
      ∀ call : Syscall, call.number ≠ number := by
  constructor
  · rintro missing call rfl
    rw [ofNumber?_number] at missing
    cases missing
  · intro unassigned
    cases found : Syscall.ofNumber? number with
    | none => rfl
    | some call => exact absurd (number_of_ofNumber? found) (unassigned call)

def Trap.cause? (trap : Trap) : Option FatalKind :=
  trap.fatal.map (·.kind)

namespace Executive

/-- The trap is a call of the process that runs. -/
structure Calls (exec : Executive) (frame : Frame) (process : Process)
    (call : Syscall) : Prop where
  current : exec.table.currentProcess? = some process
  supervisor :
    frame.syndrome.exceptionClass = ExceptionClass.supervisorCall
  named : frame.syndrome.immediate = call.number

/-- What a trap is to be halted for, or that it is not to be halted. -/
inductive Deserves (exec : Executive) (frame : Frame) (memory : UserMemory) :
    Option FatalKind → Prop
  | idle (idle : exec.table.currentProcess? = none) :
      Deserves exec frame memory (some .noCurrentProcess)
  | exception (process : Process)
      (current : exec.table.currentProcess? = some process)
      (foreign :
        frame.syndrome.exceptionClass ≠ ExceptionClass.supervisorCall) :
      Deserves exec frame memory
        (some (.unexpectedException frame.syndrome.exceptionClass))
  | unknown (process : Process)
      (current : exec.table.currentProcess? = some process)
      (supervisor :
        frame.syndrome.exceptionClass = ExceptionClass.supervisorCall)
      (unassigned : ∀ call : Syscall,
        call.number ≠ frame.syndrome.immediate) :
      Deserves exec frame memory
        (some (.unknownSyscall frame.syndrome.immediate))
  | trespass (process : Process) (call : Syscall) (bad : BadAddress)
      (calls : exec.Calls frame process call)
      (trespasses : Trespasses memory process frame.context call bad) :
      Deserves exec frame memory
        (some (.badUserMemory bad.address bad.length))
  | nothing (process : Process) (call : Syscall)
      (calls : exec.Calls frame process call)
      (lawful : ∀ bad, ¬ Trespasses memory process frame.context call bad) :
      Deserves exec frame memory none

variable {exec before middle after : Executive} {frame : Frame}
  {memory : UserMemory} {readings : Readings} {process : Process}
  {call : Syscall}

theorem Calls.unique {other : Process} {otherCall : Syscall}
    (first : exec.Calls frame process call)
    (second : exec.Calls frame other otherCall) :
    process = other ∧ call = otherCall := by
  refine ⟨Option.some.inj (first.current.symm.trans second.current), ?_⟩
  have same := congrArg Syscall.ofNumber? (first.named.symm.trans second.named)
  rw [Syscall.ofNumber?_number, Syscall.ofNumber?_number] at same
  exact Option.some.inj same

theorem Deserves.unique {cause other : Option FatalKind}
    (first : exec.Deserves frame memory cause)
    (second : exec.Deserves frame memory other) : cause = other := by
  -- The conditions exclude each other: each denies all those before it.
  cases first <;> cases second <;>
    grind [Calls, Calls.unique, Trespasses.unique]

/-- Everything that an observer of a fatal trap might miss is still there. -/
structure Untouched (before after : Executive) : Prop where
  current : after.table.current = before.table.current
  state? : ∀ id, after.table.state? id = before.table.state? id
  memory : after.memory = before.memory
  sleepers : after.sleepers = before.sleepers

theorem Untouched.refl (exec : Executive) : Untouched exec exec :=
  ⟨rfl, fun _ => rfl, rfl, rfl⟩

theorem Untouched.trans (earlier : Untouched before middle)
    (later : Untouched middle after) : Untouched before after where
  current := later.current.trans earlier.current
  state? id := (later.state? id).trans (earlier.state? id)
  memory := later.memory.trans earlier.memory
  sleepers := later.sleepers.trans earlier.sleepers

theorem Untouched.of_amends
    (amends : ProcessTable.Amends after.table before.table)
    (memory : after.memory = before.memory)
    (sleepers : after.sleepers = before.sleepers) : Untouched before after :=
  ⟨amends.current, amends.state?, memory, sleepers⟩

theorem Coherent.untouched_capture (coherent : exec.Coherent)
    (context : Context) : Untouched exec (exec.capture context) := by
  refine Untouched.of_amends (amends_capture coherent context) ?_ ?_
  · unfold Executive.capture
    split <;> rfl
  · unfold Executive.capture
    split <;> rfl

/-- A call that fails has done no more than read its input. -/
theorem Served.untouched {caller : ProcessId} {kind : FatalKind}
    (served : exec.Served caller after (.error kind)) :
    Untouched exec after := by
  cases served with
  | unmoved same =>
      rw [same]
      exact Untouched.refl exec
  | granted _ _ resumes | freed _ _ _ _ _ resumes =>
      obtain ⟨_, flows⟩ := resumes
      cases flows
  | read input same =>
      rw [same]
      exact Untouched.of_amends (ProcessTable.amends_updateProcess
        (fun _ => rfl) (fun _ => rfl) (fun _ => rfl)) rfl rfl
  | slept _ _ _ blocks => cases blocks
  | stopped _ _ exits => cases exits

inductive Judges (exec : Executive) (frame : Frame) (readings : Readings)
    (trap : Trap) : Prop
  | halted (kind : FatalKind)
      (deserves : exec.Deserves frame readings.memory (some kind))
      (fatal : trap.fatal = some (FatalReport.ofFrame kind frame))
      (kept : trap.frame = frame) (untouched : Untouched exec trap.exec)
      (quiet : commands trap.effects = [])
  | returned (process : Process) (call : Syscall)
      (calls : exec.Calls frame process call)
      (lawful : ∀ bad,
        ¬ Trespasses readings.memory process frame.context call bad)
      (fatal : trap.fatal = none)
      (crash_iff : .crash ∈ trap.effects ↔
        Oversteps exec.memory readings.memory process frame.context call)

theorem Coherent.process?_capture (coherent : exec.Coherent)
    (current : exec.table.currentProcess? = some process)
    (context : Context) :
    (exec.capture context).table.process? process.id =
      some (process.withContext context) := by
  obtain ⟨slot, pointed, rfl⟩ := Option.map_eq_some_iff.mp current
  have running : exec.table.currentId? = some exec.table.slots[slot].id :=
    ProcessTable.currentId?_eq_some_iff.mpr ⟨slot, pointed, rfl⟩
  rcases coherent.capture_cases context with
    ⟨idle, _⟩ | ⟨holder, table, held, same, rewrites⟩
  · rw [running] at idle
    cases idle
  · obtain rfl := Option.some.inj (running.symm.trans held)
    rw [same, rewrites.process?, if_pos rfl,
      coherent.table.process?_of_current pointed]
    rfl

theorem Calls.handleSynchronous_eq (calls : exec.Calls frame process call)
    (readings : Readings) :
    exec.handleSynchronous frame readings =
      let service := (exec.capture frame.context).perform readings process.id
        frame.context call
      let effects :=
        Journal.called process.id call frame.context :: service.effects
      match service.flow with
      | .error kind =>
          ⟨service.exec, frame, effects,
            some (FatalReport.ofFrame kind frame)⟩
      | .ok flow =>
          let settled := service.exec.settle process.id flow
          ⟨settled.1, frame.resume settled.1.nextContext,
            effects ++ settled.2, none⟩ := by
  obtain ⟨slot, pointed, rfl⟩ := Option.map_eq_some_iff.mp calls.current
  rw [handleSynchronous, pointed, Syndrome.callNumber?_eq,
    if_pos calls.supervisor, calls.named]
  cases outcome : ((exec.capture frame.context).perform readings
      exec.table.slots[slot].id frame.context call).flow with
  | error kind => simp only [serve, Syscall.ofNumber?_number, outcome]
  | ok flow => simp only [serve, Syscall.ofNumber?_number, outcome]

theorem Coherent.judges_call (coherent : exec.Coherent)
    (calls : exec.Calls frame process call) (readings : Readings) :
    exec.Judges frame readings (exec.handleSynchronous frame readings) := by
  have found := coherent.process?_capture calls.current frame.context
  have captured := coherent.untouched_capture frame.context
  have served := served_perform (exec.capture frame.context) readings
    process.id frame.context call
  rw [calls.handleSynchronous_eq]
  dsimp only
  cases verdict_perform found readings frame.context call with
  | fatal bad trespasses fails quiet =>
      rw [fails] at served ⊢
      have blamed := trespasses.congr process rfl
      exact .halted _ (.trespass process call bad calls blamed) rfl rfl
        (captured.trans served.untouched) quiet
  | returns lawful flow flows crash_iff =>
      rw [captured.memory] at crash_iff
      rw [flows]
      refine .returned process call calls (fun bad trespasses => ?_) rfl ?_
      · exact lawful bad (trespasses.congr _ rfl)
      · rw [List.mem_append,
          or_iff_left (not_mem_of_quiet (commands_settle _ _ _)),
          List.mem_cons, or_iff_right nofun, crash_iff]
        exact ⟨fun oversteps => oversteps.congr process rfl rfl,
          fun oversteps => oversteps.congr _ rfl rfl⟩

theorem Coherent.judges (coherent : exec.Coherent) (frame : Frame)
    (readings : Readings) :
    exec.Judges frame readings (exec.handleSynchronous frame readings) := by
  cases current : exec.table.currentProcess? with
  | none =>
      have idle : exec.table.current = none :=
        Option.map_eq_none_iff.mp current
      rw [handleSynchronous, idle]
      exact .halted _ (.idle current) rfl rfl (Untouched.refl exec) rfl
  | some process =>
      have captured := coherent.untouched_capture frame.context
      obtain ⟨slot, pointed, rfl⟩ := Option.map_eq_some_iff.mp current
      by_cases supervisor :
          frame.syndrome.exceptionClass = ExceptionClass.supervisorCall
      · cases named : Syscall.ofNumber? frame.syndrome.immediate with
        | some call =>
            exact coherent.judges_call ⟨current, supervisor,
              (Syscall.number_of_ofNumber? named).symm⟩ readings
        | none =>
            have unassigned := Syscall.ofNumber?_eq_none_iff.mp named
            rw [handleSynchronous, pointed, Syndrome.callNumber?_eq,
              if_pos supervisor]
            dsimp only
            rw [serve, named]
            exact .halted _ (.unknown _ current supervisor unassigned) rfl rfl
              captured rfl
      · rw [handleSynchronous, pointed, Syndrome.callNumber?_eq,
          if_neg supervisor]
        exact .halted _ (.exception _ current supervisor) rfl rfl captured rfl

structure Judged (exec : Executive) (frame : Frame) (readings : Readings)
    (trap : Trap) : Prop where
  cause_iff : ∀ cause, trap.cause? = cause ↔
    exec.Deserves frame readings.memory cause
  crash_iff : .crash ∈ trap.effects ↔
    ∃ process call, exec.Calls frame process call ∧
      Oversteps exec.memory readings.memory process frame.context call
  safe : exec.memory.windowStop ≤ maxWord →
    readings.memory.base + readings.memory.size ≤ maxWord + 1 →
      .crash ∉ trap.effects
  report : ∀ report, trap.fatal = some report →
    report.syndrome = frame.syndrome.raw ∧
      report.address = frame.context.programCounter ∧
      report.faultAddress = frame.faultAddress
  untouched : trap.fatal ≠ none → trap.frame = frame ∧
    Untouched exec trap.exec ∧ commands trap.effects = []

theorem cause_iff_of_deserves {trap : Trap}
    (deserves : exec.Deserves frame memory trap.cause?)
    (cause : Option FatalKind) :
    trap.cause? = cause ↔ exec.Deserves frame memory cause := by
  constructor
  · rintro rfl
    exact deserves
  · exact deserves.unique

theorem Judges.judged {trap : Trap}
    (judges : exec.Judges frame readings trap) :
    exec.Judged frame readings trap := by
  cases judges with
  | halted kind deserves fatal kept untouched quiet =>
      have cause : trap.cause? = some kind := by
        rw [Trap.cause?, fatal]
        rfl
      have deserved := deserves
      rw [← cause] at deserved
      refine ⟨cause_iff_of_deserves deserved, iff_of_false ?_ ?_,
        fun _ _ => not_mem_of_quiet quiet, fun report found => ?_,
        fun _ => ⟨kept, untouched, quiet⟩⟩
      · exact not_mem_of_quiet quiet
      · rintro ⟨process, call, calls, oversteps⟩
        have lawful := deserves.unique
          (.nothing process call calls fun _ => oversteps.lawful)
        cases lawful
      · rw [fatal] at found
        rw [← Option.some.inj found]
        exact ⟨rfl, rfl, rfl⟩
  | returned process call calls lawful fatal crash_iff =>
      have deserved : exec.Deserves frame readings.memory trap.cause? := by
        rw [Trap.cause?, fatal]
        exact .nothing process call calls lawful
      refine ⟨cause_iff_of_deserves deserved, crash_iff.trans ⟨?_, ?_⟩,
        fun low fits crashes => ?_, fun report found => ?_, fun halts => ?_⟩
      · exact fun oversteps => ⟨process, call, calls, oversteps⟩
      · rintro ⟨other, otherCall, others, oversteps⟩
        obtain ⟨rfl, rfl⟩ := calls.unique others
        exact oversteps
      · exact not_oversteps low fits (crash_iff.mp crashes)
      · rw [fatal] at found
        cases found
      · exact absurd fatal halts

/-- In every reachable state the cause of a synchronous trap is the one that it
deserves.  A fatal trap reports where it came from and leaves everything
untouched. -/
theorem traps_judged (config : Configuration) (events : List Event)
    (frame : Frame) (readings : Readings) :
    ((boot config).run events).Judged frame readings
      (((boot config).run events).handleSynchronous frame readings) :=
  (((coherent_boot config).run events).judges frame readings).judged

/-! A window may end where the addresses do, and then its end is no address.
The first to ask for it crashes the kernel: whoever gives back a page that
nobody holds. -/

namespace WindowAtTheTop

def config : Configuration where
  memoryBase := 0xffffffffffffe000
  memorySize := 2 * pageSize
  lines := InterruptLines.unassigned
  idle := Context.zero
  exitLink := 0

def events : List Event :=
  [.spawn 0x1000 pageSize .user "top", .start]

def release : Frame where
  context := Context.zero.setArguments [0xfffffffffffff000]
  syndrome := Syndrome.ofCall Syscall.heapFree.number
  faultAddress := 0

def devices : Readings where
  pending := none
  now := 0
  keys := []
  screenSize := (0, 0)
  charSize := TextScale.cell
  memory := UserMemory.zeroed 0 0

end WindowAtTheTop

open WindowAtTheTop in
theorem heapFree_crashes_at_the_top :
    ((boot config).run events).Deserves release devices.memory none ∧
      .crash ∈ (((boot config).run events).handleSynchronous release
        devices).effects := by
  have current : ((boot config).run events).table.currentProcess? =
      some ((boot config).run events).table.slots[(0 : Fin 16)] := by
    decide +kernel
  have calls : ((boot config).run events).Calls release _ .heapFree :=
    ⟨current, by decide, by decide⟩
  refine ⟨.nothing _ .heapFree calls nofun, ?_⟩
  decide +kernel

end Executive

end Nucleus
