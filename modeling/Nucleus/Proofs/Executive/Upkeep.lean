import Nucleus.Executive.Trap
import Nucleus.Proofs.Executive.Coherence

/-!
What the executive does on its own account.  Scheduling, waking sleepers,
delivering input and dealing with interrupts leave every process with its
estate, and the executive coherent.
-/

namespace Nucleus

namespace Executive

/-- One process may be gone; all others, and the idle loop, keep what they
have. -/
structure Spares (ending : Option ProcessId) (before after : Executive) :
    Prop where
  coherent : after.Coherent
  estate? : ∀ id, after.table.estate? id =
    if ending = some id then none else before.table.estate? id
  idle : after.idle = before.idle
  exitLink : after.exitLink = before.exitLink

section Spares

variable {before middle after : Executive} {ending : Option ProcessId}

theorem Coherent.spares (coherent : before.Coherent)
    (table : after.table.WellFormed)
    (estate? : after.table.estate? = before.table.estate?)
    (memory : after.memory = before.memory)
    (idle : after.idle = before.idle)
    (exitLink : after.exitLink = before.exitLink) :
    Spares none before after where
  coherent := coherent.of_tenure? table
    (ProcessTable.tenure?_congr estate?) memory
  estate? id := by rw [if_neg (Option.some_ne_none id).symm, estate?]
  idle := idle
  exitLink := exitLink

theorem Spares.refl (coherent : before.Coherent) :
    Spares none before before :=
  coherent.spares coherent.table rfl rfl rfl rfl

theorem Spares.estate?_eq (spares : Spares none before after)
    (id : ProcessId) :
    after.table.estate? id = before.table.estate? id := by
  rw [spares.estate?, if_neg (Option.some_ne_none id).symm]

theorem Spares.trans (earlier : Spares ending before middle)
    (later : Spares none middle after) : Spares ending before after where
  coherent := later.coherent
  estate? id := by rw [later.estate?_eq, earlier.estate?]
  idle := later.idle.trans earlier.idle
  exitLink := later.exitLink.trans earlier.exitLink

end Spares

variable {exec : Executive}

theorem Coherent.spares_reschedule (coherent : exec.Coherent) :
    Spares none exec exec.reschedule.1 :=
  coherent.spares coherent.table.advance
    (ProcessTable.restates_advance exec.table).estate? rfl rfl rfl

theorem settled_reschedule (exec : Executive) :
    exec.reschedule.1.table.Settled :=
  ProcessTable.settled_advance exec.table

theorem deliver_cases (exec : Executive) (event : KeyEvent) :
    (exec.deliver event).1 = exec ∨
    ∃ delivery, exec.table.deliver? event = some delivery ∧
      (exec.deliver event).1 = { exec with table := delivery.table } := by
  unfold deliver
  cases exec.table.deliver? event with
  | none => exact Or.inl rfl
  | some delivery => exact Or.inr ⟨delivery, rfl, rfl⟩

theorem Coherent.spares_deliver (coherent : exec.Coherent)
    (event : KeyEvent) : Spares none exec (exec.deliver event).1 := by
  rcases deliver_cases exec event with same | ⟨delivery, delivered, same⟩
  · rw [same]
    exact Spares.refl coherent
  · rw [same]
    exact coherent.spares
      (coherent.table.amend (ProcessTable.amends_deliver? delivered))
      (ProcessTable.estate?_deliver? delivered) rfl rfl rfl

theorem amends_deliver (exec : Executive) (event : KeyEvent) :
    ProcessTable.Amends (exec.deliver event).1.table exec.table := by
  rcases deliver_cases exec event with same | ⟨delivery, delivered, same⟩
  · rw [same]
    exact ProcessTable.Amends.refl exec.table
  · rw [same]
    exact ProcessTable.amends_deliver? delivered

theorem amends_deliverAll (exec : Executive) (events : List KeyEvent) :
    ProcessTable.Amends (exec.deliverAll events).1.table exec.table := by
  induction events generalizing exec with
  | nil => exact ProcessTable.Amends.refl exec.table
  | cons event rest ih => exact (ih _).trans (amends_deliver exec event)

theorem Coherent.spares_deliverAll (coherent : exec.Coherent)
    (events : List KeyEvent) :
    Spares none exec (exec.deliverAll events).1 := by
  induction events generalizing exec with
  | nil => exact Spares.refl coherent
  | cons event rest ih =>
      have first := coherent.spares_deliver event
      exact first.trans (ih first.coherent)

theorem focus_eq_ok {id : ProcessId} {after : Executive}
    (focused : exec.focus id = .ok after) :
    ∃ slot, exec.table.slotOf? id = some slot ∧
      after = { exec with table := exec.table.focusOn slot } := by
  unfold focus at focused
  cases outcome : exec.table.focus id with
  | error cause =>
      rw [outcome] at focused
      cases focused
  | ok table =>
      obtain ⟨slot, found, rfl⟩ := ProcessTable.focus_eq_ok outcome
      rw [outcome] at focused
      exact ⟨slot, found, (Except.ok.inj focused).symm⟩

theorem Coherent.spares_focus (coherent : exec.Coherent) {id : ProcessId}
    {after : Executive} (focused : exec.focus id = .ok after) :
    Spares none exec after := by
  obtain ⟨slot, found, rfl⟩ := focus_eq_ok focused
  have live := (ProcessTable.live_of_slotOf? found).1
  exact coherent.spares (coherent.table.focusOn live)
    (ProcessTable.estate?_focusOn slot) rfl rfl rfl

theorem settled_focus (settled : exec.table.Settled) {id : ProcessId}
    {after : Executive} (focused : exec.focus id = .ok after) :
    after.table.Settled := by
  obtain ⟨slot, _, rfl⟩ := focus_eq_ok focused
  exact settled.focusOn slot

/-- Whatever holds of a table and survives a blocked process becoming ready
holds once everybody has been woken. -/
theorem wakeAll_induction {motive : ProcessTable → Prop}
    (wakes : ∀ table (slot : Fin 16), motive table →
      table.slots[slot].state = .blocked →
        motive (table.setState slot .ready))
    {table : ProcessTable} (holds : motive table) (ids : List ProcessId) :
    motive (wakeAll table ids).1 := by
  induction ids generalizing table with
  | nil => exact holds
  | cons id rest ih =>
      rw [wakeAll]
      cases found : table.process? id with
      | none => exact ih holds
      | some process =>
          obtain ⟨slot, slotFound, rfl⟩ :=
            ProcessTable.process?_eq_some found
          dsimp only
          split
          · rename_i blocked
            have woken : (table.updateProcess id fun process =>
                { process with state := .ready }) =
                  table.setState slot .ready := by
              rw [ProcessTable.updateProcess, slotFound]
              rfl
            rw [woken]
            exact ih (wakes table slot holds blocked)
          · exact ih holds

theorem live_of_blocked {process : Process}
    (blocked : process.state = .blocked) : process.isLive = true := by
  rw [Process.isLive, blocked]
  rfl

theorem wellFormed_wakeAll {table : ProcessTable}
    (wellFormed : table.WellFormed) (ids : List ProcessId) :
    (wakeAll table ids).1.WellFormed := by
  refine wakeAll_induction ?_ wellFormed ids
  intro table slot wellFormed blocked
  exact wellFormed.setState (live_of_blocked blocked) (by decide) (by decide)

theorem restates_wakeAll (table : ProcessTable) (ids : List ProcessId) :
    ProcessTable.Restates (wakeAll table ids).1 table := by
  refine wakeAll_induction
    (motive := fun woken => ProcessTable.Restates woken table) ?_
    (ProcessTable.Restates.refl table) ids
  intro middle slot restates blocked
  exact (ProcessTable.restates_setState (live_of_blocked blocked)
    (by decide)).trans restates

theorem settled_wakeAll {table : ProcessTable} (settled : table.Settled)
    (ids : List ProcessId) : (wakeAll table ids).1.Settled := by
  refine wakeAll_induction ?_ settled ids
  intro table slot settled blocked holder pointed
  have running := settled holder pointed
  have away : holder ≠ slot := by
    rintro rfl
    rw [Process.isRunning, blocked] at running
    cases running
  rw [ProcessTable.slots_setState, if_neg away]
  exact running

theorem Coherent.spares_wakeSleepers (coherent : exec.Coherent)
    (now : Nat) : Spares none exec (exec.wakeSleepers now).1 :=
  coherent.spares (wellFormed_wakeAll coherent.table _)
    (restates_wakeAll exec.table _).estate? rfl rfl rfl

theorem Coherent.spares_dispatchInterrupt (coherent : exec.Coherent)
    (readings : Readings) (interrupt : Nat) :
    Spares none exec (exec.dispatchInterrupt readings interrupt).1 := by
  unfold dispatchInterrupt
  split
  · exact coherent.spares_reschedule
  · have woken := coherent.spares_wakeSleepers readings.now
    dsimp only
    split
    · exact woken.trans woken.coherent.spares_reschedule
    · exact woken
  · exact coherent.spares_deliverAll readings.keys
  · exact Spares.refl coherent
  · exact Spares.refl coherent

theorem settled_dispatchInterrupt (settled : exec.table.Settled)
    (readings : Readings) (interrupt : Nat) :
    (exec.dispatchInterrupt readings interrupt).1.table.Settled := by
  unfold dispatchInterrupt
  split
  · exact settled_reschedule exec
  · dsimp only
    split
    · exact settled_reschedule _
    · exact settled_wakeAll settled _
  · exact settled.amend (amends_deliverAll exec readings.keys)
  · exact settled
  · exact settled

end Executive

end Nucleus
