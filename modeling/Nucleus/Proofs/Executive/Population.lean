import Nucleus.Proofs.Executive.Upkeep

namespace Nucleus

namespace Executive

variable {exec : Executive} {id : ProcessId} {slot : Fin 16}

def withdraw (exec : Executive) (id : ProcessId) (slot : Fin 16) :
    Executive :=
  { exec with
    table := (exec.table.clearSlot exec.memory slot).table
    memory := (exec.table.clearSlot exec.memory slot).memory
    sleepers := exec.sleepers.erase id }

/-- Only a process that was running leaves a decision to be taken. -/
theorem exec_of_terminate {after : Executive} {effects : List Effect}
    (ended : exec.terminate id = .ok (after, effects)) :
    ∃ slot, exec.table.slotOf? id = some slot ∧
      ((exec.table.slots[slot].isRunning = true ∧
          after = (exec.withdraw id slot).reschedule.1) ∨
        (exec.table.slots[slot].isRunning = false ∧
          after = exec.withdraw id slot)) := by
  unfold terminate ProcessTable.terminate at ended
  cases found : exec.table.slotOf? id with
  | none =>
      rw [found] at ended
      cases ended
  | some slot =>
      refine ⟨slot, rfl, ?_⟩
      rw [found] at ended
      dsimp only at ended
      split at ended
      · rename_i running
        exact .inl ⟨running, (Prod.mk.inj (Except.ok.inj ended)).1.symm⟩
      · rename_i stands
        exact .inr ⟨Bool.eq_false_iff.mpr stands,
          (Prod.mk.inj (Except.ok.inj ended)).1.symm⟩

theorem terminate_eq_ok {after : Executive} {effects : List Effect}
    (ended : exec.terminate id = .ok (after, effects)) :
    ∃ slot, exec.table.slotOf? id = some slot ∧
      (after = exec.withdraw id slot ∨
        after = (exec.withdraw id slot).reschedule.1) := by
  obtain ⟨slot, found, ⟨_, same⟩ | ⟨_, same⟩⟩ := exec_of_terminate ended
  · exact ⟨slot, found, Or.inr same⟩
  · exact ⟨slot, found, Or.inl same⟩

theorem terminate_eq_error {cause : ProcessError}
    (refused : exec.terminate id = .error cause) :
    exec.table.slotOf? id = none := by
  unfold terminate ProcessTable.terminate at refused
  cases found : exec.table.slotOf? id with
  | none => rfl
  | some slot =>
      rw [found] at refused
      dsimp only at refused
      split at refused <;> cases refused

theorem Coherent.spares_withdraw (coherent : exec.Coherent)
    (found : exec.table.slotOf? id = some slot) :
    Spares (some id) exec (exec.withdraw id slot) := by
  obtain ⟨live, rfl⟩ := ProcessTable.live_of_slotOf? found
  have rest : ∀ other,
      (exec.table.clearSlot exec.memory slot).table.process? other =
        if other = exec.table.slots[slot].id then none
        else exec.table.process? other :=
    coherent.table.process?_clearSlot exec.memory live
  constructor
  · apply coherent.of_releaseOwnedBy
      (coherent.table.clearSlot exec.memory live) rfl
    intro other
    rw [withdraw, ProcessTable.tenure?, rest]
    split
    · rfl
    · rfl
  · intro other
    rw [withdraw, ProcessTable.estate?, rest]
    by_cases here : other = exec.table.slots[slot].id
    · rw [if_pos here, if_pos (congrArg some here.symm)]
      rfl
    · rw [if_neg here, if_neg fun same => here (Option.some.inj same).symm]
      rfl
  · rfl
  · rfl

theorem Coherent.spares_terminate (coherent : exec.Coherent)
    {after : Executive} {effects : List Effect}
    (ended : exec.terminate id = .ok (after, effects)) :
    Spares (some id) exec after := by
  obtain ⟨slot, found, rfl | rfl⟩ := terminate_eq_ok ended
  · exact coherent.spares_withdraw found
  · have withdrawn := coherent.spares_withdraw found
    exact withdrawn.trans withdrawn.coherent.spares_reschedule

theorem settled_terminate (settled : exec.table.Settled)
    {after : Executive} {effects : List Effect}
    (ended : exec.terminate id = .ok (after, effects)) :
    after.table.Settled := by
  obtain ⟨slot, _, rfl | rfl⟩ := terminate_eq_ok ended
  · exact settled.clearSlot exec.memory slot
  · exact settled_reschedule _

structure Welcomes (id : ProcessId) (newcomer : Process)
    (before after : Executive) : Prop where
  coherent : after.Coherent
  unknown : before.table.process? id = none
  process? : ∀ other, after.table.process? other =
    if other = id then some newcomer else before.table.process? other
  idle : after.idle = before.idle
  exitLink : after.exitLink = before.exitLink

/-- The process runs from its entry on top of its own stack. -/
structure Fresh (exec : Executive) (entry : UInt64) (mode : ProcessMode)
    (newcomer : Process) : Prop where
  mode_eq : newcomer.mode = mode
  context_eq : newcomer.context =
    Context.start entry (UInt64.ofNat newcomer.stackTop)
      mode.processorState.raw exec.exitLink

theorem Coherent.alignStack_granted (coherent : exec.Coherent)
    (placement : Allocator.Placement) (owner : ProcessId) :
    ProcessTable.alignStack
        (exec.memory.grant placement owner).region.stop =
      (exec.memory.grant placement owner).region.stop := by
  have aligned := coherent.memory.window_aligned
  simp only [ProcessTable.alignStack, Region.stop, Allocator.grant,
    pageSize] at aligned ⊢
  omega

theorem Coherent.spawn_cases (coherent : exec.Coherent) (entry : UInt64)
    (stackSize : Nat) (mode : ProcessMode) (name : String) :
    (∃ cause, (exec.spawn entry stackSize mode name).outcome = .error cause ∧
      Spares none exec (exec.spawn entry stackSize mode name).exec) ∨
    (∃ id newcomer,
      (exec.spawn entry stackSize mode name).outcome = .ok id ∧
      exec.Fresh entry mode newcomer ∧
      Welcomes id newcomer exec
        (exec.spawn entry stackSize mode name).exec) := by
  let request : SpawnRequest := ⟨entry, stackSize, mode, name, exec.exitLink⟩
  have wellFormed := coherent.table.create exec.memory request
  have spawned : (exec.spawn entry stackSize mode name).exec =
      { exec with
        table := (exec.table.create exec.memory request).table
        memory := (exec.table.create exec.memory request).memory } := rfl
  have outcome : (exec.spawn entry stackSize mode name).outcome =
      (exec.table.create exec.memory request).outcome.map (·.1) := rfl
  rw [spawned, outcome]
  rcases ProcessTable.create_cases exec.table exec.memory request with
    ⟨cause, nextId, same⟩ | ⟨slot, used, placement, found, placed, same⟩
  · left
    rw [same] at wellFormed ⊢
    exact ⟨cause, rfl, coherent.spares wellFormed rfl rfl rfl rfl⟩
  · right
    have fits := Allocator.fits_of_place? placed
    have created : (exec.table.create exec.memory request).outcome =
        .ok (exec.table.newId, slot) := by rw [same]
    have lookup := coherent.table.process?_create created
    have vacant := (coherent.table.slotForNew?_eq_some found).1
    have free := ProcessTable.newId_free vacant
    have unknown : exec.table.process? exec.table.newId = none := by
      rw [ProcessTable.process?, free.2]
      rfl
    rw [same] at wellFormed lookup ⊢
    rw [ProcessTable.slots_seat_self] at lookup
    refine ⟨exec.table.newId, _, rfl, ⟨rfl, ?_⟩, ?_, unknown, lookup, rfl,
      rfl⟩
    · have aligned :=
        coherent.alignStack_granted placement exec.table.newId
      exact congrArg (fun top => Context.start entry (UInt64.ofNat top)
        mode.processorState.raw exec.exitLink) aligned
    · apply coherent.of_grant fits wellFormed rfl
      · rw [ne_eq, ProcessTable.tenure?_eq_none_iff, lookup, if_pos rfl]
        exact Option.some_ne_none _
      · intro id known
        rw [ne_eq, ProcessTable.tenure?_eq_none_iff] at known ⊢
        rw [lookup]
        split
        · exact Option.some_ne_none _
        · exact known
      · intro id tenure held
        rw [ProcessTable.tenure?, lookup] at held
        split at held
        · right
          obtain rfl := Option.some.inj held
          exact ⟨_, rfl, Allocator.region?_granted _ _ _⟩
        · exact Or.inl held

end Executive

end Nucleus
