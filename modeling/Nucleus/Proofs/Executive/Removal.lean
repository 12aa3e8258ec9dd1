import Nucleus.Proofs.Executive.Ownership
import Nucleus.Proofs.Executive.Quarters
import Nucleus.Proofs.Executive.Sleep
import Nucleus.Proofs.Memory.Forfeiture
import Nucleus.Proofs.Process.Rounds

namespace Nucleus

namespace ProcessTable

variable {table : ProcessTable} {memory : Allocator} {slot : Fin 16}

theorem advance_of_idle (idle : table.current = none) :
    (∃ next, table.nextReady? = some next ∧
      table.advance.1 = table.dispatch next) ∨
    (table.nextReady? = none ∧ table.advance.1 = table) := by
  cases found : table.nextReady? with
  | none =>
      right
      refine ⟨rfl, ?_⟩
      simp only [advance, found, currentProcess?, idle, Option.map_none]
  | some next =>
      left
      have nobody : table.preempt = table := by
        simp only [preempt, idle]
      refine ⟨next, rfl, ?_⟩
      rw [advance_of_some found, nobody]

/-- Who has the processor once a slot has been vacated. -/
inductive Succeeds (before : ProcessTable) (slot : Fin 16)
    (after : ProcessTable) : Prop
  | undisturbed (stands : before.slots[slot].state ≠ .running)
      (current : after.current = before.current)
      (cursor : after.cursor = before.cursor)
      (others : ∀ other : Fin 16, other ≠ slot →
        after.slots[other] = before.slots[other])
  | followed (ran : before.slots[slot].state = .running) (next : Fin 16)
      (ready : before.slots[next].state = .ready)
      (first : ∀ other : Fin 16, before.slots[other].state = .ready →
        gap slot next ≤ gap slot other)
      (current : after.current = some next)
      (cursor : after.cursor = some next)
      (runs : after.slots[next] =
        { before.slots[next] with state := .running })
      (others : ∀ other : Fin 16, other ≠ slot → other ≠ next →
        after.slots[other] = before.slots[other])
  | deserted (ran : before.slots[slot].state = .running)
      (nobody : ∀ other : Fin 16, before.slots[other].state ≠ .ready)
      (current : after.current = none)
      (cursor : after.cursor = before.cursor)
      (others : ∀ other : Fin 16, other ≠ slot →
        after.slots[other] = before.slots[other])

theorem succeeds_clearSlot (settled : table.Settled)
    (stands : table.slots[slot].isRunning = false) :
    table.Succeeds slot (table.clearSlot memory slot).table := by
  have elsewhere : table.current ≠ some slot := by
    intro pointed
    rw [settled slot pointed] at stands
    cases stands
  refine .undisturbed ?_ (if_neg elsewhere) rfl fun other away => ?_
  · exact fun ran => absurd (beq_iff_eq.mpr ran) (Bool.eq_false_iff.mp stands)
  · rw [slots_clearSlot, if_neg away]

/-- The vacated slot is not ready, so the scan is for the first of the others. -/
theorem ready_clearSlot {next : Fin 16}
    (ready : (table.clearSlot memory slot).table.slots[next].state = .ready) :
    next ≠ slot ∧ table.slots[next].state = .ready := by
  rw [slots_clearSlot] at ready
  split at ready
  · cases ready
  · rename_i away
    exact ⟨away, ready⟩

theorem WellFormed.succeeds_advance (wellFormed : table.WellFormed)
    (inTurn : table.InTurn) (memory : Allocator)
    (running : table.slots[slot].isRunning = true) :
    table.Succeeds slot (table.clearSlot memory slot).table.advance.1 := by
  have ran : table.slots[slot].state = .running := beq_iff_eq.mp running
  have live : table.slots[slot].isLive = true := by
    rw [Process.isLive, ran]
    rfl
  have pointed := wellFormed.running_current slot running
  have cleared := wellFormed.clearSlot memory live
  have idle : (table.clearSlot memory slot).table.current = none :=
    if_pos pointed
  have last : (table.clearSlot memory slot).table.lastSelected = slot :=
    congrArg (·.getD (Fin.last 15)) (inTurn slot pointed)
  rcases advance_of_idle idle with ⟨next, found, same⟩ | ⟨nobody, same⟩
  · obtain ⟨away, ready⟩ := ready_clearSlot (ready_of_nextReady? found)
    rw [same]
    refine .followed ran next ready (fun other waits => ?_) rfl rfl ?_
      fun other otherAway passed => ?_
    · have elsewhere : other ≠ slot := by
        rintro rfl
        rw [ran] at waits
        cases waits
      rw [← last]
      apply gap_nextReady?_le cleared found
      rw [slots_clearSlot, if_neg elsewhere]
      exact waits
    · rw [slots_dispatch, slots_setState, slots_clearSlot, if_neg away,
        if_pos rfl]
    · rw [slots_dispatch, slots_setState, slots_clearSlot, if_neg otherAway,
        if_neg passed]
  · rw [same]
    refine .deserted ran (fun other waits => ?_) idle rfl fun other away => ?_
    · apply not_ready_of_nextReady? cleared nobody other
      rw [slots_clearSlot]
      split
      · rename_i here
        rw [here, ran] at waits
        cases waits
      · exact waits
    · rw [slots_clearSlot, if_neg away]

theorem WellFormed.live_clearSlot (wellFormed : table.WellFormed)
    (memory : Allocator) (live : table.slots[slot].isLive = true) :
    (table.clearSlot memory slot).table.live + 1 = table.live := by
  have member : slot ∈ table.liveSlots := Slots.mem_all.mpr live
  have positive := List.length_pos_of_mem member
  rw [← wellFormed.counted] at positive
  exact Nat.sub_add_cancel positive

end ProcessTable

namespace Executive

variable {exec : Executive} {id : ProcessId} {slot : Fin 16}

/-- The process in a slot is gone with everything it had, and nothing else is. -/
structure Removes (before : Executive) (slot : Fin 16) (after : Executive) :
    Prop where
  vacated : after.table.slots[slot] = Process.vacant
  succeeds : before.table.Succeeds slot after.table
  live : after.table.live + 1 = before.table.live
  used : after.table.used = before.table.used
  nextId : after.table.nextId = before.table.nextId
  stack : ∃ handle, before.table.slots[slot].stack = some handle ∧
    ∃ region ∈ before.memory.ownedBy before.table.slots[slot].id,
      before.memory.region? handle = some region
  forfeits : Allocator.Forfeits before.table.slots[slot].id before.memory
    after.memory
  queue : after.sleepers.toList.Perm (before.sleepers.toList.filter
    fun sleeper => sleeper.id ≠ before.table.slots[slot].id)
  deadline?_eq : ∀ other, after.sleepers.deadline? other =
    if other = before.table.slots[slot].id then none
    else before.sleepers.deadline? other
  router : after.router = before.router
  idle : after.idle = before.idle
  exitLink : after.exitLink = before.exitLink

/-- What comes of the request to end a process. -/
inductive Terminates (exec : Executive) (id : ProcessId) :
    Except ProcessError (Executive × List Effect) → Prop
  | missing
      (nobody : ∀ slot : Fin 16, exec.table.slots[slot].isLive = true →
        exec.table.slots[slot].id ≠ id)
      (kept : exec.step (.terminate id) = exec) :
      Terminates exec id (.error .noSuchProcess)
  | removed (slot : Fin 16) (after : Executive) (effects : List Effect)
      (live : exec.table.slots[slot].isLive = true)
      (named : exec.table.slots[slot].id = id)
      (removes : exec.Removes slot after)
      (left : exec.step (.terminate id) = after) :
      Terminates exec id (.ok (after, effects))

theorem Attentive.removes (attentive : exec.Attentive)
    (live : exec.table.slots[slot].isLive = true) {table : ProcessTable}
    (vacated : table.slots[slot] = Process.vacant)
    (succeeds : exec.table.Succeeds slot table)
    (counters : table.used = exec.table.used ∧
      table.live + 1 = exec.table.live ∧
      table.nextId = exec.table.nextId) :
    exec.Removes slot
      { exec.withdraw exec.table.slots[slot].id slot with table := table } := by
  obtain ⟨coherent, _, attuned⟩ := attentive
  have sound : exec.sleepers.Sound := attuned.sound
  obtain ⟨handle, stack, named⟩ :=
    coherent.secured_stack (coherent.table.process?_of_live live)
  obtain ⟨used, fewer, nextId⟩ := counters
  exact
    { vacated := vacated
      succeeds := succeeds
      live := fewer
      used := used
      nextId := nextId
      stack := ⟨handle, stack, _, Allocator.mem_ownedBy.mpr
        ⟨handle.slot, Allocator.holds_of_region? named, rfl⟩, named⟩
      forfeits := coherent.memory.forfeits _
      queue := DeadlineQueue.erase_perm sound.distinct _
      deadline?_eq := sound.deadline?_erase _
      router := rfl
      idle := rfl
      exitLink := rfl }

theorem Attentive.removes_terminate (attentive : exec.Attentive)
    (inTurn : exec.table.InTurn) {after : Executive} {effects : List Effect}
    (ended : exec.terminate id = .ok (after, effects)) :
    ∃ slot, exec.table.slotOf? id = some slot ∧ exec.Removes slot after := by
  have wellFormed := attentive.coherent.table
  obtain ⟨slot, found, decided⟩ := exec_of_terminate ended
  obtain ⟨live, rfl⟩ := ProcessTable.live_of_slotOf? found
  have vacated : (exec.table.clearSlot exec.memory slot).table.slots[slot] =
      Process.vacant := by
    rw [ProcessTable.slots_clearSlot, if_pos rfl]
  have fewer := wellFormed.live_clearSlot exec.memory live
  refine ⟨slot, found, ?_⟩
  rcases decided with ⟨running, rfl⟩ | ⟨stands, rfl⟩
  · have cleared := wellFormed.clearSlot exec.memory live
    obtain ⟨used, same, nextId⟩ := ProcessTable.counters_advance
      (exec.table.clearSlot exec.memory slot).table
    refine attentive.removes live (cleared.advance.vacant slot ?_)
      (wellFormed.succeeds_advance inTurn exec.memory running)
      ⟨used, (congrArg (· + 1) same).trans fewer, nextId⟩
    rw [(ProcessTable.restates_advance _).isLive, vacated]
    rfl
  · exact attentive.removes live vacated
      (ProcessTable.succeeds_clearSlot attentive.settled stands)
      ⟨rfl, fewer, rfl⟩

/-- In every reachable state the request to end a process removes that process
and no other, and is refused if there is no such process. -/
theorem one_process_removed (config : Configuration) (events : List Event)
    (id : ProcessId) :
    let exec := (boot config).run events
    exec.Terminates id (exec.terminate id) := by
  intro exec
  have attentive : exec.Attentive := (attentive_boot config).run events
  cases outcome : exec.terminate id with
  | error cause =>
      have missing := terminate_eq_error outcome
      have refused : cause = .noSuchProcess := by
        rw [terminate, ProcessTable.terminate, missing] at outcome
        exact (Except.error.inj outcome).symm
      rw [refused]
      refine .missing (fun slot live named => ?_) ?_
      · rw [← named, attentive.coherent.table.slotOf?_of_live live] at missing
        cases missing
      · simp only [step, outcome]
  | ok ended =>
      obtain ⟨slot, found, removes⟩ :=
        attentive.removes_terminate (inTurn_run config events) outcome
      obtain ⟨live, named⟩ := ProcessTable.live_of_slotOf? found
      refine .removed slot ended.1 ended.2 live named removes ?_
      simp only [step, outcome]

end Executive

end Nucleus
