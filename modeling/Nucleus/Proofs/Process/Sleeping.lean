import Nucleus.Proofs.Process.Estate

namespace Nucleus

namespace ProcessTable

variable {table after before : ProcessTable} {id other : ProcessId}

def state? (table : ProcessTable) (id : ProcessId) : Option ProcessState :=
  (table.process? id).map (·.state)

def Sleeps (table : ProcessTable) (id : ProcessId) : Prop :=
  table.state? id = some .blocked

instance (table : ProcessTable) (id : ProcessId) :
    Decidable (table.Sleeps id) :=
  inferInstanceAs (Decidable (table.state? id = some .blocked))

theorem state?_of_slotOf? {slot : Fin 16}
    (found : table.slotOf? id = some slot) :
    table.state? id = some table.slots[slot].state := by
  rw [state?, process?_of_slotOf? found, Option.map_some]

theorem state?_eq_some {state : ProcessState}
    (found : table.state? id = some state) :
    ∃ slot, table.slotOf? id = some slot ∧
      table.slots[slot].state = state := by
  rw [state?, Option.map_eq_some_iff] at found
  obtain ⟨process, processFound, rfl⟩ := found
  obtain ⟨slot, slotFound, rfl⟩ := process?_eq_some processFound
  exact ⟨slot, slotFound, rfl⟩

theorem WellFormed.state?_of_live (wellFormed : table.WellFormed)
    {slot : Fin 16} (live : table.slots[slot].isLive = true) :
    table.state? table.slots[slot].id = some table.slots[slot].state :=
  state?_of_slotOf? (wellFormed.slotOf?_of_live live)

theorem WellFormed.sleeps_iff (wellFormed : table.WellFormed)
    (id : ProcessId) :
    table.Sleeps id ↔ ∃ slot : Fin 16, table.slots[slot].id = id ∧
      table.slots[slot].state = .blocked := by
  constructor
  · intro asleep
    obtain ⟨slot, found, blocked⟩ := state?_eq_some asleep
    exact ⟨slot, (live_of_slotOf? found).2, blocked⟩
  · rintro ⟨slot, rfl, blocked⟩
    have live : table.slots[slot].isLive = true := by
      rw [Process.isLive, blocked]
      rfl
    rw [Sleeps, wellFormed.state?_of_live live, blocked]

theorem sleeps_congr
    (sameSlot : after.slotOf? id = before.slotOf? id)
    (sameBlocked : ∀ slot : Fin 16, after.slots[slot].state = .blocked ↔
      before.slots[slot].state = .blocked) :
    after.Sleeps id ↔ before.Sleeps id := by
  unfold Sleeps
  cases found : before.slotOf? id with
  | none =>
      rw [state?, state?, process?, process?, sameSlot, found]
      rfl
  | some slot =>
      rw [state?_of_slotOf? found, state?_of_slotOf? (sameSlot.trans found),
        Option.some.injEq, Option.some.injEq]
      exact sameBlocked slot

theorem Amends.state? (amends : Amends after before) (id : ProcessId) :
    after.state? id = before.state? id :=
  map_process?_congr amends.isLive amends.id amends.state id

theorem Amends.sleeps (amends : Amends after before) (id : ProcessId) :
    after.Sleeps id ↔ before.Sleeps id := by
  rw [Sleeps, Sleeps, amends.state?]

theorem sleeps_focusOn (slot : Fin 16) (id : ProcessId) :
    (table.focusOn slot).Sleeps id ↔ table.Sleeps id := by
  apply sleeps_congr
  · apply slotOf?_congr <;> intro other <;> rw [slots_focusOn] <;> rfl
  · intro other
    rw [slots_focusOn]
    rfl

theorem blocked_advance (table : ProcessTable) (slot : Fin 16) :
    table.advance.1.slots[slot].state = .blocked ↔
      table.slots[slot].state = .blocked := by
  rcases state_advance table slot with
    ⟨_, before, after⟩ | ⟨_, same | ⟨before, after⟩⟩
  · rw [before, after]
    decide
  · rw [same]
  · rw [before, after]
    decide

theorem sleeps_advance (table : ProcessTable) (id : ProcessId) :
    table.advance.1.Sleeps id ↔ table.Sleeps id := by
  have restates := restates_advance table
  exact sleeps_congr (slotOf?_congr restates.isLive restates.id)
    (blocked_advance table)

theorem state?_advance (ready : table.state? id = some .ready) :
    table.advance.1.state? id = some .ready ∨
      table.advance.1.state? id = some .running := by
  obtain ⟨slot, found, before⟩ := state?_eq_some ready
  have restates := restates_advance table
  have stays : table.advance.1.slotOf? id = some slot :=
    (slotOf?_congr restates.isLive restates.id).trans found
  rw [state?_of_slotOf? stays]
  rcases state_advance table slot with ⟨_, _, after⟩ | ⟨_, same | ⟨was, _⟩⟩
  · exact Or.inr (congrArg some after)
  · exact Or.inl (congrArg some (same.trans before))
  · rw [before] at was
    cases was

theorem WellFormed.sleeps_create (wellFormed : table.WellFormed)
    (memory : Allocator) (request : SpawnRequest) (id : ProcessId) :
    (table.create memory request).table.Sleeps id ↔ table.Sleeps id := by
  rcases create_cases table memory request with
    ⟨cause, nextId, same⟩ | ⟨slot, used, placement, found, _, same⟩
  · rw [same]
    rfl
  · have created : (table.create memory request).outcome =
        .ok (table.newId, slot) := by rw [same]
    have free := newId_free (wellFormed.slotForNew?_eq_some found).1
    rw [Sleeps, state?, wellFormed.process?_create created, Sleeps, state?]
    split
    · rename_i here
      rw [same, here, slots_seat_self, process?, free.2]
      simp [newProcess]
    · rfl

theorem WellFormed.sleeps_clearSlot (wellFormed : table.WellFormed)
    (memory : Allocator) {slot : Fin 16}
    (live : table.slots[slot].isLive = true) (id : ProcessId) :
    (table.clearSlot memory slot).table.Sleeps id ↔
      id ≠ table.slots[slot].id ∧ table.Sleeps id := by
  rw [Sleeps, state?, wellFormed.process?_clearSlot memory live]
  by_cases here : id = table.slots[slot].id
  · simp [here]
  · rw [if_neg here]
    exact (and_iff_right here).symm

theorem state?_updateState (table : ProcessTable) (id : ProcessId)
    {state : ProcessState} (stays : state ≠ .stopped) (other : ProcessId) :
    (table.updateProcess id fun process =>
      { process with state := state }).state? other =
        if other = id then (table.state? id).map fun _ => state
        else table.state? other := by
  have lookup : (table.updateProcess id fun process =>
      { process with state := state }).process? other =
        if other = id then (table.process? id).map fun process =>
          { process with state := state }
        else table.process? other := by
    apply process?_updateProcess
    · exact fun _ => rfl
    · exact fun _ _ => bne_iff_ne.mpr stays
  rw [state?, lookup]
  split
  · rw [state?, Option.map_map, Option.map_map]
    rfl
  · rfl

theorem sleeps_block (live : table.process? id ≠ none) (other : ProcessId) :
    (table.updateProcess id fun process =>
      { process with state := .blocked }).Sleeps other ↔
        other = id ∨ table.Sleeps other := by
  rw [Sleeps, state?_updateState table id (by decide)]
  obtain ⟨process, found⟩ := Option.ne_none_iff_exists'.mp live
  by_cases here : other = id
  · simp [here, state?, found]
  · simp [here, Sleeps]

end ProcessTable

end Nucleus
