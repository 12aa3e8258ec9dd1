import Nucleus.Proofs.Process.Change

namespace Nucleus

namespace ProcessTable

variable {table : ProcessTable}

def focusOn (table : ProcessTable) (slot : Fin 16) : ProcessTable :=
  let unfocused : ProcessTable :=
    { table with slots := table.slots.map (·.setFocus false) }
  unfocused.update slot (·.setFocus true)

theorem focus_eq_ok {id : ProcessId} {after : ProcessTable}
    (focused : table.focus id = .ok after) :
    ∃ slot, table.slotOf? id = some slot ∧ after = table.focusOn slot := by
  unfold focus at focused
  cases found : table.slotOf? id with
  | none => simp [found] at focused
  | some slot =>
      simp only [found, Except.ok.injEq] at focused
      exact ⟨slot, rfl, focused.symm⟩

theorem slots_focusOn (slot other : Fin 16) :
    (table.focusOn slot).slots[other] =
      table.slots[other].setFocus (decide (other = slot)) := by
  have unfocused : ∀ slot : Fin 16,
      (table.slots.map fun process => process.setFocus false)[slot] =
        table.slots[slot].setFocus false :=
    fun slot => Slots.get_map _ _ _
  rw [focusOn, slots_update]
  by_cases here : other = slot
  · rw [if_pos here, unfocused, decide_eq_true here, here]
    rfl
  · rw [if_neg here, unfocused, decide_eq_false here]

theorem WellFormed.keeps_focusOn (wellFormed : table.WellFormed)
    {slot : Fin 16} (live : table.slots[slot].isLive = true) :
    Keeps (table.focusOn slot) table := by
  refine ⟨rfl, rfl, fun other => ?_, fun other => ?_,
    fun other stopped => ?_⟩
  · rw [slots_focusOn]
    rfl
  · rw [slots_focusOn]
    rfl
  · rw [slots_focusOn, decide_eq_false (ne_of_live stopped live),
      wellFormed.vacant other stopped]
    rfl

theorem WellFormed.focusOn (wellFormed : table.WellFormed) {slot : Fin 16}
    (live : table.slots[slot].isLive = true) :
    (table.focusOn slot).WellFormed := by
  apply wellFormed.keep (wellFormed.keeps_focusOn live)
  · intro first second firstFocused secondFocused
    rw [slots_focusOn] at firstFocused secondFocused
    rw [of_decide_eq_true firstFocused, of_decide_eq_true secondFocused]
  · exact wellFormed.cursor_below
  · exact wellFormed.current_live
  · intro other running
    rw [slots_focusOn] at running
    exact wellFormed.running_current other running

theorem Settled.focusOn (settled : table.Settled) (slot : Fin 16) :
    (table.focusOn slot).Settled := by
  intro other pointed
  rw [slots_focusOn]
  exact settled other pointed

theorem deliver?_eq_some {event : KeyEvent} {delivery : Delivery}
    (delivered : table.deliver? event = some delivery) :
    ∃ slot input, table.slots[slot].isLive = true ∧
      table.slots[slot].focused = true ∧
      delivery.table = table.update slot fun process =>
        { process with input := input } := by
  rw [deliver?, Option.map_eq_some_iff] at delivered
  obtain ⟨slot, found, rfl⟩ := delivered
  have accepted := Slots.accepts_of_first? found
  rw [Bool.and_eq_true] at accepted
  exact ⟨slot, _, accepted.1, accepted.2, rfl⟩

theorem amends_deliver? {event : KeyEvent} {delivery : Delivery}
    (delivered : table.deliver? event = some delivery) :
    Amends delivery.table table := by
  obtain ⟨slot, input, live, _, same⟩ := deliver?_eq_some delivered
  rw [same]
  exact amends_update live (fun _ => rfl) (fun _ => rfl) (fun _ => rfl)

end ProcessTable

end Nucleus
