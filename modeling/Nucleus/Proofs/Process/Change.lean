import Nucleus.Proofs.Process.Standing

namespace Nucleus

namespace ProcessTable

variable {table : ProcessTable}

theorem slots_update (table : ProcessTable) (slot other : Fin 16)
    (change : Process → Process) :
    (table.update slot change).slots[other] =
      if other = slot then change table.slots[slot] else table.slots[other] :=
  Slots.get_write _ _ _ _

theorem view_update {α : Type} {view : Process → α} {slot : Fin 16}
    {change : Process → Process}
    (same : ∀ process, view (change process) = view process)
    (other : Fin 16) :
    view (table.update slot change).slots[other] =
      view table.slots[other] := by
  rw [slots_update]
  split
  · rename_i here
    rw [here, same]
  · rfl

theorem amends_update {slot : Fin 16} {change : Process → Process}
    (live : table.slots[slot].isLive = true)
    (sameId : ∀ process, (change process).id = process.id)
    (sameState : ∀ process, (change process).state = process.state)
    (sameFocus : ∀ process, (change process).focused = process.focused) :
    Amends (table.update slot change) table := by
  refine ⟨rfl, rfl, rfl, rfl, view_update sameId, view_update sameState,
    view_update sameFocus, fun other stopped => ?_⟩
  rw [slots_update]
  exact if_neg (ne_of_live stopped live)

theorem amends_updateProcess {id : ProcessId} {change : Process → Process}
    (sameId : ∀ process, (change process).id = process.id)
    (sameState : ∀ process, (change process).state = process.state)
    (sameFocus : ∀ process, (change process).focused = process.focused) :
    Amends (table.updateProcess id change) table := by
  unfold updateProcess
  cases found : table.slotOf? id with
  | none => exact Amends.refl table
  | some slot =>
      exact amends_update (live_of_slotOf? found).1 sameId sameState sameFocus

def setState (table : ProcessTable) (slot : Fin 16) (state : ProcessState) :
    ProcessTable :=
  table.update slot fun process => { process with state := state }

theorem slots_setState (table : ProcessTable) (slot other : Fin 16)
    (state : ProcessState) :
    (table.setState slot state).slots[other] =
      { table.slots[other] with
        state := if other = slot then state
          else table.slots[other].state } := by
  rw [setState, slots_update]
  split
  · rename_i here
    rw [here]
  · rfl

theorem isLive_setState {slot : Fin 16} {state : ProcessState}
    (live : table.slots[slot].isLive = true) (stays : state ≠ .stopped)
    (other : Fin 16) :
    (table.setState slot state).slots[other].isLive =
      table.slots[other].isLive := by
  rw [slots_setState]
  by_cases here : other = slot
  · subst here
    rw [live, if_pos rfl]
    exact bne_iff_ne.mpr stays
  · rw [if_neg here]

theorem isRunning_setState {slot : Fin 16} {state : ProcessState}
    (idle : state ≠ .running) (other : Fin 16)
    (running : (table.setState slot state).slots[other].isRunning = true) :
    other ≠ slot ∧ table.slots[other].isRunning = true := by
  rw [slots_setState] at running
  by_cases here : other = slot
  · rw [if_pos here] at running
    exact absurd (beq_iff_eq.mp running) idle
  · rw [if_neg here] at running
    exact ⟨here, running⟩

theorem keeps_setState {slot : Fin 16} {state : ProcessState}
    (live : table.slots[slot].isLive = true) (stays : state ≠ .stopped) :
    Keeps (table.setState slot state) table := by
  refine ⟨rfl, rfl, fun other => ?_, isLive_setState live stays,
    fun other stopped => ?_⟩
  · rw [slots_setState]
  · rw [slots_setState, if_neg (ne_of_live stopped live)]

theorem WellFormed.setState (wellFormed : table.WellFormed) {slot : Fin 16}
    {state : ProcessState} (live : table.slots[slot].isLive = true)
    (stays : state ≠ .stopped) (idle : state ≠ .running) :
    (table.setState slot state).WellFormed := by
  apply wellFormed.keep (keeps_setState live stays)
  · intro first second firstFocused secondFocused
    rw [slots_setState] at firstFocused secondFocused
    exact wellFormed.focus_unique first second firstFocused secondFocused
  · exact wellFormed.cursor_below
  · exact wellFormed.current_live
  · intro other running
    exact wellFormed.running_current other
      (isRunning_setState idle other running).2

theorem updateState_cases (table : ProcessTable) (id : ProcessId)
    (state : ProcessState) :
    (table.updateProcess id fun process =>
      { process with state := state }) = table ∨
    ∃ slot : Fin 16, table.slots[slot].isLive = true ∧
      (table.updateProcess id fun process =>
        { process with state := state }) = table.setState slot state := by
  unfold updateProcess
  cases found : table.slotOf? id with
  | none => exact Or.inl rfl
  | some slot => exact Or.inr ⟨slot, (live_of_slotOf? found).1, rfl⟩

theorem WellFormed.updateState (wellFormed : table.WellFormed)
    (id : ProcessId) {state : ProcessState} (stays : state ≠ .stopped)
    (idle : state ≠ .running) :
    (table.updateProcess id fun process =>
      { process with state := state }).WellFormed := by
  rcases updateState_cases table id state with same | ⟨slot, live, same⟩
  · rw [same]
    exact wellFormed
  · rw [same]
    exact wellFormed.setState live stays idle

structure Restates (after before : ProcessTable) : Prop where
  content : ∀ slot : Fin 16, ∃ state,
    after.slots[slot] = { before.slots[slot] with state := state }
  isLive : ∀ slot : Fin 16,
    after.slots[slot].isLive = before.slots[slot].isLive

theorem Restates.refl (table : ProcessTable) : Restates table table :=
  ⟨fun slot => ⟨table.slots[slot].state, rfl⟩, fun _ => rfl⟩

theorem Restates.trans {first second third : ProcessTable}
    (later : Restates third second) (earlier : Restates second first) :
    Restates third first := by
  constructor
  · intro slot
    obtain ⟨middle, middleContent⟩ := earlier.content slot
    obtain ⟨state, content⟩ := later.content slot
    exact ⟨state, by rw [content, middleContent]⟩
  · intro slot
    rw [later.isLive, earlier.isLive]

theorem Restates.id {after before : ProcessTable}
    (restates : Restates after before) (slot : Fin 16) :
    after.slots[slot].id = before.slots[slot].id := by
  obtain ⟨state, content⟩ := restates.content slot
  rw [content]

theorem restates_setState {slot : Fin 16} {state : ProcessState}
    (live : table.slots[slot].isLive = true) (stays : state ≠ .stopped) :
    Restates (table.setState slot state) table :=
  ⟨fun other => ⟨_, slots_setState table slot other state⟩,
    isLive_setState live stays⟩

theorem restates_updateState (table : ProcessTable) (id : ProcessId)
    {state : ProcessState} (stays : state ≠ .stopped) :
    Restates (table.updateProcess id fun process =>
      { process with state := state }) table := by
  rcases updateState_cases table id state with same | ⟨slot, live, same⟩
  · rw [same]
    exact Restates.refl table
  · rw [same]
    exact restates_setState live stays

end ProcessTable

end Nucleus
