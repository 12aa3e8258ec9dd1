import Nucleus.Proofs.Executive.Service
import Nucleus.Proofs.Executive.Sleep

/-!
Bystanders.  A synchronous trap is the business of the process that it
interrupts.  All others keep what they have, their regions and their places in
the deadline queue, and at most one of them, which was ready, runs afterwards.
-/

namespace Nucleus

namespace ProcessTable

variable {table : ProcessTable} {id : ProcessId} {process : Process}

theorem process?_advance (found : table.process? id = some process) :
    ∃ slot, table.slotOf? id = some slot ∧ table.slots[slot] = process ∧
      table.advance.1.process? id = some { process with
        state := table.advance.1.slots[slot].state } := by
  obtain ⟨slot, slotFound, rfl⟩ := process?_eq_some found
  have restates := restates_advance table
  have stays : table.advance.1.slotOf? id = some slot :=
    (slotOf?_congr restates.isLive restates.id).trans slotFound
  obtain ⟨state, content⟩ := restates.content slot
  refine ⟨slot, slotFound, rfl, ?_⟩
  rw [process?_of_slotOf? stays, content]

theorem nextReady?_of_starts (ready : table.state? id = some .ready)
    (runs : table.advance.1.state? id = some .running) :
    ∃ slot, table.nextReady? = some slot ∧ table.slots[slot].id = id := by
  obtain ⟨process, found, waits⟩ := Option.map_eq_some_iff.mp ready
  obtain ⟨slot, slotFound, rfl, after⟩ := process?_advance found
  rw [state?, after, Option.map_some, Option.some.injEq] at runs
  refine ⟨slot, ?_, (live_of_slotOf? slotFound).2⟩
  rcases state_advance table slot with ⟨next, _⟩ | ⟨_, same | ⟨_, stops⟩⟩
  · exact next
  · rw [runs, waits] at same
    cases same
  · rw [runs] at stops
    cases stops

end ProcessTable

namespace Executive

/-- Nobody but the caller can tell the difference. -/
structure Isolates (caller : ProcessId) (before after : Executive) :
    Prop where
  process? : ∀ id, id ≠ caller →
    after.table.process? id = before.table.process? id
  holds_iff : ∀ slot region, region.owner ≠ caller →
    (after.memory.Holds slot region ↔ before.memory.Holds slot region)
  deadline? : ∀ id, id ≠ caller →
    after.sleepers.deadline? id = before.sleepers.deadline? id

variable {exec before middle after : Executive} {caller : ProcessId}

theorem Isolates.refl (caller : ProcessId) (exec : Executive) :
    Isolates caller exec exec :=
  ⟨fun _ _ => rfl, fun _ _ _ => Iff.rfl, fun _ _ => rfl⟩

theorem Isolates.trans (earlier : Isolates caller before middle)
    (later : Isolates caller middle after) :
    Isolates caller before after where
  process? id other :=
    (later.process? id other).trans (earlier.process? id other)
  holds_iff slot region foreign :=
    (later.holds_iff slot region foreign).trans
      (earlier.holds_iff slot region foreign)
  deadline? id other :=
    (later.deadline? id other).trans (earlier.deadline? id other)

theorem Coherent.isolates_capture (coherent : exec.Coherent)
    (running : exec.table.currentId? = some caller) (context : Context) :
    Isolates caller exec (exec.capture context) := by
  rcases coherent.capture_cases context with
    ⟨idle, _⟩ | ⟨holder, table, held, same, rewrites⟩
  · rw [running] at idle
    cases idle
  · obtain rfl := Option.some.inj (running.symm.trans held)
    rw [same]
    refine ⟨fun id other => ?_, fun _ _ _ => Iff.rfl, fun _ _ => rfl⟩
    rw [rewrites.process?, if_neg other]

theorem isolates_setResult (exec : Executive) (caller : ProcessId)
    (value : UInt64) : Isolates caller exec (exec.setResult caller value) := by
  refine ⟨fun id other => ?_, fun _ _ _ => Iff.rfl, fun _ _ => rfl⟩
  rw [(rewrites_setResult exec caller value).process?, if_neg other]

theorem holds_grant_iff_of_foreign {memory : Allocator}
    {placement : Allocator.Placement} (fits : memory.Fits placement)
    {slot : Fin 128} {region : Region} (foreign : region.owner ≠ caller) :
    (memory.grant placement caller).memory.Holds slot region ↔
      memory.Holds slot region := by
  rw [Allocator.holds_grant]
  constructor
  · rintro (⟨_, rfl⟩ | ⟨_, holds⟩)
    · exact absurd rfl foreign
    · exact holds
  · exact fun holds => .inr ⟨fits.ne_of_holds holds, holds⟩

theorem holds_vacate_iff_of_foreign {memory : Allocator} {slot : Fin 128}
    {region : Region} (holds : memory.Holds slot region)
    (owned : region.owner = caller) {other : Fin 128} {kept : Region}
    (foreign : kept.owner ≠ caller) :
    (memory.vacate slot).Holds other kept ↔ memory.Holds other kept := by
  rw [Allocator.holds_vacate, and_iff_right_iff_imp]
  rintro keptHolds rfl
  obtain rfl : region = kept := Option.some.inj (holds.symm.trans keptHolds)
  exact foreign owned

theorem isolates_update {change : Process → Process} {memory : Allocator}
    {sleepers : DeadlineQueue}
    (sameId : ∀ process, (change process).id = process.id)
    (staysLive : ∀ process, process.isLive = true →
      (change process).isLive = true)
    (holds_iff : ∀ slot region, region.owner ≠ caller →
      (memory.Holds slot region ↔ exec.memory.Holds slot region))
    (deadline? : ∀ id, id ≠ caller →
      sleepers.deadline? id = exec.sleepers.deadline? id) :
    Isolates caller exec { exec with
      memory := memory
      sleepers := sleepers
      table := exec.table.updateProcess caller change } := by
  refine ⟨fun id other => ?_, holds_iff, deadline?⟩
  exact (ProcessTable.process?_updateProcess sameId staysLive id).trans
    (if_neg other)

theorem isolates_rebase {change : Process → Process} {memory : Allocator}
    (rebases : ∀ process, ∃ heapBase,
      change process = { process with heapBase := heapBase })
    (holds_iff : ∀ slot region, region.owner ≠ caller →
      (memory.Holds slot region ↔ exec.memory.Holds slot region)) :
    Isolates caller exec { exec with
      memory := memory
      table := exec.table.updateProcess caller change } := by
  refine isolates_update (fun process => ?_) (fun process live => ?_)
    holds_iff fun _ _ => rfl
  · obtain ⟨heapBase, same⟩ := rebases process
    rw [same]
  · obtain ⟨heapBase, same⟩ := rebases process
    rw [same]
    exact live

theorem Coherent.isolates_withdraw (coherent : exec.Coherent)
    (sound : exec.sleepers.Sound) {slot : Fin 16}
    (found : exec.table.slotOf? caller = some slot) :
    Isolates caller exec (exec.withdraw caller slot) := by
  obtain ⟨live, rfl⟩ := ProcessTable.live_of_slotOf? found
  refine ⟨fun id other => ?_, fun place region foreign => ?_,
    fun id other => ?_⟩
  · exact (coherent.table.process?_clearSlot exec.memory live id).trans
      (if_neg other)
  · exact (Allocator.holds_releaseOwnedBy place region).trans
      (and_iff_left foreign)
  · exact (sound.deadline?_erase _ id).trans (if_neg other)

inductive Shields (caller : ProcessId) (before after : Executive) : Prop
  | undecided (isolates : Isolates caller before after)
  | decided (middle : Executive) (isolates : Isolates caller before middle)
      (same : after = middle.reschedule.1)

theorem Isolates.trans_shields (earlier : Isolates caller before middle)
    (later : Shields caller middle after) : Shields caller before after := by
  cases later with
  | undecided isolates => exact .undecided (earlier.trans isolates)
  | decided last isolates same =>
      exact .decided last (earlier.trans isolates) same

theorem Isolates.shields_settle (isolates : Isolates caller before after)
    (flow : Flow) : Shields caller before (after.settle caller flow).1 := by
  have answered := fun value =>
    isolates.trans (isolates_setResult after caller value)
  cases flow with
  | resume value => exact .undecided (answered value)
  | giveWay value | block value => exact .decided _ (answered value) rfl
  | exit => exact .undecided isolates

theorem Coherent.shields_terminate (coherent : exec.Coherent)
    (sound : exec.sleepers.Sound) {effects : List Effect}
    (ended : exec.terminate caller = .ok (after, effects)) :
    Shields caller exec after := by
  obtain ⟨slot, found, rfl | rfl⟩ := terminate_eq_ok ended
  · exact .undecided (coherent.isolates_withdraw sound found)
  · exact .decided _ (coherent.isolates_withdraw sound found) rfl

theorem Coherent.shields_served (coherent : exec.Coherent)
    (sound : exec.sleepers.Sound) {flow : Except FatalKind Flow}
    (served : exec.Served caller after flow) :
    Isolates caller exec after ∨
      flow = .ok .exit ∧ Shields caller exec after := by
  cases served with
  | unmoved same =>
      rw [same]
      exact .inl (Isolates.refl caller exec)
  | granted placement fits resumes same =>
      rw [same]
      have rebases := fun process : Process => process.adoptHeap_eq
        (exec.memory.grant placement caller).region.base
      exact .inl (isolates_rebase rebases fun _ _ =>
        holds_grant_iff_of_foreign fits)
  | freed slot region base holds owned resumes same =>
      rw [same]
      have rebases := fun process : Process => process.dropHeap_eq base
      exact .inl (isolates_rebase rebases fun _ _ =>
        holds_vacate_iff_of_foreign holds owned)
  | read input same =>
      rw [same]
      exact .inl (isolates_update (fun _ => rfl) (fun _ live => live)
        (fun _ _ _ => Iff.rfl) fun _ _ => rfl)
  | slept queue deadline inserted blocks same =>
      rw [same]
      exact .inl (isolates_update (fun _ => rfl) (fun _ _ => rfl)
        (fun _ _ _ => Iff.rfl) fun id other =>
          (sound.deadline?_insert inserted id).trans (if_neg other))
  | stopped reports ended exits =>
      exact .inr ⟨exits, coherent.shields_terminate sound ended⟩

theorem Attentive.shields_handleSynchronous (attentive : exec.Attentive)
    (running : exec.table.currentId? = some caller) (frame : Frame)
    (readings : Readings) :
    Shields caller exec (exec.handleSynchronous frame readings).exec := by
  have coherent := attentive.coherent
  have captured := coherent.isolates_capture running frame.context
  have sound : (exec.capture frame.context).sleepers.Sound := by
    have same : (exec.capture frame.context).sleepers = exec.sleepers :=
      congrArg Dormitory.queue
        (coherent.rests_capture frame.context).dormitory
    rw [same]
    exact attentive.attuned.sound
  rcases handleSynchronous_cases exec frame readings with
    ⟨idle, _⟩ | ⟨_, _, _, same, _⟩ | ⟨holder, service, held, called, ends⟩
  · rw [running] at idle
    cases idle
  · rw [same]
    exact .undecided captured
  · obtain rfl := Option.some.inj (running.symm.trans held)
    obtain ⟨_, number, _, rfl⟩ := callOf?_eq_some called
    have served := (coherent.capture frame.context).shields_served sound
      (served_serve _ readings caller frame.context number)
    rcases ends with ⟨kind, fails, same, _⟩ | ⟨flow, flows, same, _⟩
    · rw [same]
      rcases served with isolates | ⟨exits, _⟩
      · exact .undecided (captured.trans isolates)
      · rw [fails] at exits
        cases exits
    · rw [same]
      rcases served with isolates | ⟨exits, shields⟩
      · exact (captured.trans isolates).shields_settle flow
      · rw [flows] at exits
        rw [Except.ok.inj exits]
        exact captured.trans_shields shields

/-- Those who are not running keep everything, except that one of them may
start to run. -/
structure Undisturbed (before after : Executive) : Prop where
  process : ∀ id process, before.table.currentId? ≠ some id →
    before.table.process? id = some process →
      ∃ state, after.table.process? id =
          some { process with state := state } ∧
        (state = process.state ∨ process.state = .ready ∧ state = .running)
  one_starts : ∀ id other, before.table.currentId? ≠ some id →
    before.table.currentId? ≠ some other →
      before.table.state? id = some .ready →
      after.table.state? id = some .running →
      before.table.state? other = some .ready →
      after.table.state? other = some .running → id = other
  regions : ∀ slot region, before.table.currentId? ≠ some region.owner →
    (after.memory.Holds slot region ↔ before.memory.Holds slot region)
  deadline : ∀ id, before.table.currentId? ≠ some id →
    after.sleepers.deadline? id = before.sleepers.deadline? id

theorem Undisturbed.refl (exec : Executive) : Undisturbed exec exec := by
  refine ⟨fun id process _ found => ⟨process.state, found, .inl rfl⟩, ?_,
    fun _ _ _ => Iff.rfl, fun _ _ => rfl⟩
  intro id other _ _ ready runs
  rw [ready] at runs
  cases runs

theorem Isolates.state?_eq (isolates : Isolates caller before after)
    {id : ProcessId} (other : id ≠ caller) :
    after.table.state? id = before.table.state? id := by
  rw [ProcessTable.state?, ProcessTable.state?, isolates.process? id other]

theorem Coherent.undisturbed_of_shields (coherent : before.Coherent)
    (running : before.table.currentId? = some caller)
    (shields : Shields caller before after) : Undisturbed before after := by
  have other : ∀ {id}, before.table.currentId? ≠ some id → id ≠ caller := by
    rintro id elsewhere rfl
    exact elsewhere running
  cases shields with
  | undecided isolates =>
      refine ⟨fun id process elsewhere found => ?_,
        fun id second elsewhere _ ready runs => ?_,
        fun slot region elsewhere =>
          isolates.holds_iff slot region (other elsewhere),
        fun id elsewhere => isolates.deadline? id (other elsewhere)⟩
      · refine ⟨process.state, ?_, .inl rfl⟩
        rw [isolates.process? id (other elsewhere), found]
      · rw [isolates.state?_eq (other elsewhere), ready] at runs
        cases runs
  | decided middle isolates same =>
      rw [same]
      refine ⟨fun id process elsewhere found => ?_,
        fun id second elsewhere secondElsewhere ready runs secondReady
          secondRuns => ?_,
        fun slot region elsewhere =>
          isolates.holds_iff slot region (other elsewhere),
        fun id elsewhere => isolates.deadline? id (other elsewhere)⟩
      · -- Whoever is not running before the trap is not running when the
        -- decision is taken.
        have stands : process.state ≠ .running := by
          intro runs
          obtain ⟨slot, slotFound, rfl⟩ := ProcessTable.process?_eq_some found
          obtain ⟨_, rfl⟩ := ProcessTable.live_of_slotOf? slotFound
          have current :=
            coherent.table.running_current slot (beq_iff_eq.mpr runs)
          exact elsewhere
            (ProcessTable.currentId?_eq_some_iff.mpr ⟨slot, current, rfl⟩)
        rw [← isolates.process? id (other elsewhere)] at found
        obtain ⟨slot, _, rfl, after⟩ := ProcessTable.process?_advance found
        refine ⟨_, after, ?_⟩
        rcases ProcessTable.state_advance middle.table slot with
          ⟨_, ready, runs⟩ | ⟨_, kept | ⟨runs, _⟩⟩
        · exact .inr ⟨ready, runs⟩
        · exact .inl kept
        · exact absurd runs stands
      · rw [← isolates.state?_eq (other elsewhere)] at ready
        rw [← isolates.state?_eq (other secondElsewhere)] at secondReady
        obtain ⟨slot, next, rfl⟩ :=
          ProcessTable.nextReady?_of_starts ready runs
        obtain ⟨place, secondNext, rfl⟩ :=
          ProcessTable.nextReady?_of_starts secondReady secondRuns
        rw [Option.some.inj (next.symm.trans secondNext)]

/-- In every reachable state a synchronous trap, whatever its frame asks for,
leaves everybody undisturbed but the process that it interrupts. -/
theorem bystanders_undisturbed (config : Configuration)
    (events : List Event) (frame : Frame) (readings : Readings) :
    Undisturbed ((boot config).run events)
      (((boot config).run events).handleSynchronous frame readings).exec := by
  have attentive := (attentive_boot config).run events
  cases running : ((boot config).run events).table.currentId? with
  | none =>
      rw [exec_handleSynchronous_of_idle running]
      exact Undisturbed.refl _
  | some caller =>
      exact attentive.coherent.undisturbed_of_shields running
        (attentive.shields_handleSynchronous running frame readings)

end Executive

end Nucleus
