import Nucleus.Process.Rotation
import Nucleus.Proofs.Process.Change

namespace Nucleus

namespace ProcessTable

variable {table : ProcessTable}

theorem preempt_cases (table : ProcessTable) :
    (∃ holder, table.current = some holder ∧
      table.slots[holder].isRunning = true ∧
      table.preempt = table.setState holder .ready) ∨
    (table.preempt = table ∧ ∀ holder, table.current = some holder →
      table.slots[holder].isRunning = false) := by
  cases current : table.current with
  | none =>
      right
      refine ⟨?_, fun holder pointed => ?_⟩
      · simp only [preempt, current]
      · cases pointed
  | some holder =>
      cases running : table.slots[holder].isRunning with
      | true =>
          left
          refine ⟨holder, rfl, running, ?_⟩
          simp only [preempt, current, setState, update, running, if_true]
      | false =>
          right
          refine ⟨?_, fun other pointed => ?_⟩
          · simp only [preempt, current, update, running,
              Bool.false_eq_true, if_false]
            rw [Slots.write_get, ← current]
          · rwa [← Option.some.inj pointed]

theorem WellFormed.not_isRunning (wellFormed : table.WellFormed)
    {slot : Fin 16} (elsewhere : table.current ≠ some slot) :
    table.slots[slot].isRunning = false := by
  cases running : table.slots[slot].isRunning with
  | false => rfl
  | true => exact absurd (wellFormed.running_current slot running) elsewhere

theorem WellFormed.preempt (wellFormed : table.WellFormed) :
    table.preempt.WellFormed := by
  rcases preempt_cases table with ⟨holder, current, _, same⟩ | ⟨same, _⟩
  · rw [same]
    exact wellFormed.setState (wellFormed.current_live holder current)
      (by decide) (by decide)
  · rw [same]
    exact wellFormed

theorem WellFormed.not_isRunning_preempt (wellFormed : table.WellFormed)
    (slot : Fin 16) : table.preempt.slots[slot].isRunning = false := by
  rcases preempt_cases table with ⟨holder, current, _, same⟩ | ⟨same, idle⟩
  · rw [same]
    cases running : (table.setState holder .ready).slots[slot].isRunning with
    | false => rfl
    | true =>
        obtain ⟨away, wasRunning⟩ :=
          isRunning_setState (by decide) slot running
        have pointed := wellFormed.running_current slot wasRunning
        exact absurd (Option.some.inj (pointed.symm.trans current)) away
  · rw [same]
    by_cases current : table.current = some slot
    · exact idle slot current
    · exact wellFormed.not_isRunning current

theorem restates_preempt (table : ProcessTable) :
    Restates table.preempt table := by
  rcases preempt_cases table with ⟨holder, _, running, same⟩ | ⟨same, _⟩
  · rw [same]
    apply restates_setState _ (by decide)
    rw [Process.isLive, beq_iff_eq.mp running]
    rfl
  · rw [same]
    exact Restates.refl table

theorem slots_dispatch (table : ProcessTable) (next slot : Fin 16) :
    (table.dispatch next).slots[slot] =
      (table.setState next .running).slots[slot] := rfl

theorem restates_dispatch {next : Fin 16}
    (live : table.slots[next].isLive = true) :
    Restates (table.dispatch next) table := by
  have stays : ProcessState.running ≠ .stopped := by decide
  have restates := restates_setState live stays
  exact ⟨restates.content, restates.isLive⟩

theorem keeps_dispatch {next : Fin 16}
    (live : table.slots[next].isLive = true) :
    Keeps (table.dispatch next) table := by
  have stays : ProcessState.running ≠ .stopped := by decide
  have keeps := keeps_setState live stays
  exact ⟨rfl, rfl, keeps.id, keeps.isLive, keeps.untouched⟩

theorem WellFormed.dispatch (wellFormed : table.WellFormed)
    (idle : ∀ slot : Fin 16, table.slots[slot].isRunning = false)
    {next : Fin 16} (live : table.slots[next].isLive = true) :
    (table.dispatch next).WellFormed := by
  apply wellFormed.keep (keeps_dispatch live)
  · intro first second firstFocused secondFocused
    rw [slots_dispatch, slots_setState] at firstFocused secondFocused
    exact wellFormed.focus_unique first second firstFocused secondFocused
  · intro slot pointed
    obtain rfl : next = slot := Option.some.inj pointed
    exact wellFormed.below next live
  · intro slot pointed
    obtain rfl : next = slot := Option.some.inj pointed
    exact live
  · intro slot running
    by_cases here : slot = next
    · rw [here]
      rfl
    · rw [slots_dispatch, slots_setState, if_neg here] at running
      have stopped := idle slot
      rw [show table.slots[slot].isRunning = true from running] at stopped
      cases stopped

theorem running_dispatch (table : ProcessTable) (next : Fin 16) :
    (table.dispatch next).slots[next].isRunning = true := by
  rw [slots_dispatch, slots_setState, if_pos rfl]
  rfl

theorem ready_of_nextReady? {next : Fin 16}
    (found : table.nextReady? = some next) :
    table.slots[next].state = .ready :=
  beq_iff_eq.mp (List.find?_some
    (p := fun slot : Fin 16 => table.slots[slot].isReady) found)

theorem live_of_nextReady? {next : Fin 16}
    (found : table.nextReady? = some next) :
    table.slots[next].isLive = true := by
  rw [Process.isLive, ready_of_nextReady? found]
  rfl

theorem advance_of_some {next : Fin 16}
    (found : table.nextReady? = some next) :
    table.advance.1 = table.preempt.dispatch next := by
  rw [advance, found]
  dsimp only
  split <;> rfl

theorem advance_of_none (nobody : table.nextReady? = none) :
    ∃ current, table.advance.1 = { table with current := current } := by
  rw [advance, nobody]
  dsimp only
  split
  · split
    · exact ⟨table.current, rfl⟩
    · exact ⟨none, rfl⟩
  · exact ⟨table.current, rfl⟩

theorem advance_cases (table : ProcessTable) :
    (∃ next, table.slots[next].isLive = true ∧
      table.advance.1 = table.preempt.dispatch next) ∨
    (∃ holder, table.current = some holder ∧
      table.slots[holder].isRunning = true ∧ table.advance.1 = table) ∨
    (table.advance.1 = { table with current := none } ∧
      ∀ holder, table.current = some holder →
        table.slots[holder].isRunning = false) := by
  cases found : table.nextReady? with
  | some next =>
      left
      exact ⟨next, live_of_nextReady? found, advance_of_some found⟩
  | none =>
      right
      cases current : table.current with
      | none =>
          right
          refine ⟨?_, fun holder pointed => by cases pointed⟩
          rw [advance, found, currentProcess?, current]
          exact congrArg
            (fun current => ({ table with current } : ProcessTable)) current
      | some holder =>
          cases running : table.slots[holder].isRunning with
          | true =>
              left
              refine ⟨holder, rfl, running, ?_⟩
              rw [advance, found, currentProcess?, current]
              dsimp only [Option.map_some]
              rw [running, if_pos rfl]
          | false =>
              right
              refine ⟨?_, fun other pointed => ?_⟩
              · rw [advance, found, currentProcess?, current]
                dsimp only [Option.map_some]
                rw [running, if_neg Bool.false_ne_true]
              · rw [← Option.some.inj pointed]
                exact running

theorem restates_advance (table : ProcessTable) :
    Restates table.advance.1 table := by
  rcases advance_cases table with
    ⟨next, live, same⟩ | ⟨holder, _, _, same⟩ | ⟨same, _⟩
  · rw [same]
    have preempted := restates_preempt table
    rw [← preempted.isLive] at live
    exact (restates_dispatch live).trans preempted
  · rw [same]
    exact Restates.refl table
  · rw [same]
    exact ⟨fun slot => ⟨table.slots[slot].state, rfl⟩, fun _ => rfl⟩

theorem counters_advance (table : ProcessTable) :
    table.advance.1.used = table.used ∧
      table.advance.1.live = table.live ∧
      table.advance.1.nextId = table.nextId := by
  have preempted : table.preempt.used = table.used ∧
      table.preempt.live = table.live ∧
      table.preempt.nextId = table.nextId := by
    rcases preempt_cases table with ⟨holder, _, _, same⟩ | ⟨same, _⟩
    · rw [same]
      exact ⟨rfl, rfl, rfl⟩
    · rw [same]
      exact ⟨rfl, rfl, rfl⟩
  rcases advance_cases table with
    ⟨next, _, same⟩ | ⟨holder, _, _, same⟩ | ⟨same, _⟩
  · rw [same]
    exact preempted
  · rw [same]
    exact ⟨rfl, rfl, rfl⟩
  · rw [same]
    exact ⟨rfl, rfl, rfl⟩

theorem state_preempt (table : ProcessTable) (slot : Fin 16) :
    table.preempt.slots[slot].state = table.slots[slot].state ∨
    (table.slots[slot].state = .running ∧
      table.preempt.slots[slot].state = .ready) := by
  rcases preempt_cases table with ⟨holder, _, running, same⟩ | ⟨same, _⟩
  · rw [same, slots_setState]
    by_cases here : slot = holder
    · rw [if_pos here, here]
      exact Or.inr ⟨beq_iff_eq.mp running, rfl⟩
    · rw [if_neg here]
      exact Or.inl rfl
  · rw [same]
    exact Or.inl rfl

/-- One ready process may start running, and one running process may have to
wait; everybody else stays as they are. -/
theorem state_advance (table : ProcessTable) (slot : Fin 16) :
    (table.nextReady? = some slot ∧ table.slots[slot].state = .ready ∧
      table.advance.1.slots[slot].state = .running) ∨
    (table.nextReady? ≠ some slot ∧
      (table.advance.1.slots[slot].state = table.slots[slot].state ∨
        (table.slots[slot].state = .running ∧
          table.advance.1.slots[slot].state = .ready))) := by
  cases found : table.nextReady? with
  | none =>
      right
      obtain ⟨current, same⟩ := advance_of_none found
      rw [same]
      exact ⟨Option.some_ne_none _ ∘ Eq.symm, Or.inl rfl⟩
  | some next =>
      rw [advance_of_some found, slots_dispatch, slots_setState]
      by_cases here : slot = next
      · left
        rw [if_pos here, here]
        exact ⟨rfl, ready_of_nextReady? found, rfl⟩
      · right
        rw [if_neg here]
        exact ⟨fun same => here (Option.some.inj same).symm,
          state_preempt table slot⟩

theorem WellFormed.advance (wellFormed : table.WellFormed) :
    table.advance.1.WellFormed := by
  rcases advance_cases table with
    ⟨next, live, same⟩ | ⟨holder, _, _, same⟩ | ⟨same, idle⟩
  · rw [same]
    rw [← (restates_preempt table).isLive] at live
    exact wellFormed.preempt.dispatch wellFormed.not_isRunning_preempt live
  · rw [same]
    exact wellFormed
  · rw [same]
    refine { wellFormed with
      current_live := fun slot pointed => by cases pointed
      running_current := fun slot running => ?_ }
    have pointed := wellFormed.running_current slot running
    have stopped := idle slot pointed
    rw [show table.slots[slot].isRunning = true from running] at stopped
    cases stopped

/-- No well-formedness is needed: a decision settles any table. -/
theorem settled_advance (table : ProcessTable) :
    table.advance.1.Settled := by
  rcases advance_cases table with
    ⟨next, _, same⟩ | ⟨holder, current, running, same⟩ | ⟨same, _⟩
  · rw [same]
    intro slot pointed
    obtain rfl : next = slot := Option.some.inj pointed
    exact running_dispatch table.preempt next
  · rw [same]
    intro slot pointed
    obtain rfl := Option.some.inj (current.symm.trans pointed)
    exact running
  · rw [same]
    intro slot pointed
    cases pointed

end ProcessTable

end Nucleus
