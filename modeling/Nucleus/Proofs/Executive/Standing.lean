import Nucleus.Proofs.Executive.Run

/-!
The process table in every reachable state.  Whatever order the events come in,
its counters and pointers tell the truth about its slots, and a process that
has ended does not run again.
-/

namespace Nucleus

namespace ProcessTable

/-- What can be relied on between two events. -/
structure Sound (table : ProcessTable) : Prop where
  one_runs : ∀ slot other : Fin 16, table.slots[slot].state = .running →
    table.slots[other].state = .running → slot = other
  current_iff : ∀ slot : Fin 16, table.current = some slot ↔
    table.slots[slot].state = .running
  live_count : table.live =
    (Finset.univ.filter fun slot : Fin 16 =>
      table.slots[slot].state ≠ .stopped).card
  used_le : table.used ≤ capacity
  below : ∀ slot : Fin 16, table.slots[slot].state ≠ .stopped →
    slot.val < table.used
  named : ∀ slot : Fin 16, table.slots[slot].state ≠ .stopped →
    table.slots[slot].id.raw ≠ 0
  distinct : ∀ slot other : Fin 16, table.slots[slot].state ≠ .stopped →
    table.slots[other].state ≠ .stopped →
      table.slots[slot].id = table.slots[other].id → slot = other
  vacant : ∀ slot : Fin 16, table.slots[slot].state = .stopped →
    table.slots[slot] = Process.vacant
  focus_unique : ∀ slot other : Fin 16, table.slots[slot].focused = true →
    table.slots[other].focused = true → slot = other
  focus_live : ∀ slot : Fin 16, table.slots[slot].focused = true →
    table.slots[slot].state ≠ .stopped
  cursor_below : ∀ slot, table.cursor = some slot → slot.val < table.used

theorem isLive_iff {process : Process} :
    process.isLive = true ↔ process.state ≠ .stopped :=
  bne_iff_ne

theorem isRunning_iff {process : Process} :
    process.isRunning = true ↔ process.state = .running :=
  beq_iff_eq

theorem length_liveSlots (table : ProcessTable) :
    table.liveSlots.length =
      (Finset.univ.filter fun slot : Fin 16 =>
        table.slots[slot].state ≠ .stopped).card := by
  rw [liveSlots, Slots.length_all, Finset.card_filter]
  apply Finset.sum_congr rfl
  intro slot _
  by_cases live : table.slots[slot].isLive = true
  · rw [if_pos (isLive_iff.mp live), live]
    rfl
  · rw [if_neg fun stays => live (isLive_iff.mpr stays),
      Bool.eq_false_iff.mpr live]
    rfl

theorem WellFormed.sound {table : ProcessTable}
    (wellFormed : table.WellFormed) (settled : table.Settled) :
    table.Sound := by
  have current_iff : ∀ slot : Fin 16, table.current = some slot ↔
      table.slots[slot].state = .running := by
    intro slot
    rw [← isRunning_iff]
    exact ⟨settled slot, wellFormed.running_current slot⟩
  constructor
  · intro slot other running otherRunning
    have pointed := (current_iff slot).mpr running
    have otherPointed := (current_iff other).mpr otherRunning
    exact Option.some.inj (pointed.symm.trans otherPointed)
  · exact current_iff
  · rw [wellFormed.counted, length_liveSlots]
  · exact wellFormed.used_le
  · intro slot live
    exact wellFormed.below slot (isLive_iff.mpr live)
  · intro slot live zero
    exact wellFormed.named slot (isLive_iff.mpr live)
      (congrArg ProcessId.mk zero)
  · intro slot other live otherLive
    exact wellFormed.distinct slot other (isLive_iff.mpr live)
      (isLive_iff.mpr otherLive)
  · intro slot stopped
    apply wellFormed.vacant
    rw [Bool.eq_false_iff]
    exact fun live => isLive_iff.mp live stopped
  · exact wellFormed.focus_unique
  · intro slot focused
    exact isLive_iff.mp (wellFormed.focus_live focused)
  · exact wellFormed.cursor_below

end ProcessTable

namespace Executive

/-- An event ends a process: from outside, or because it asks to stop. -/
inductive Ends (exec : Executive) (id : ProcessId) : Event → Prop
  | terminated (live : exec.table.process? id ≠ none) :
      Ends exec id (.terminate id)
  | stopped (frame : Frame) (readings : Readings) (service : Service)
      (called : exec.callOf? frame readings = some (id, service))
      (exits : service.flow = .ok .exit) :
      Ends exec id (.trap ⟨.synchronous, frame, readings⟩)

def Withholds (exec : Executive) (id : ProcessId) : List Event → Prop
  | [] => True
  | event :: rest =>
      exec.handsOut? event ≠ some id ∧ (exec.step event).Withholds id rest

variable {exec : Executive} {id : ProcessId}

theorem Coherent.gone_of_ends (coherent : exec.Coherent) {event : Event}
    (ends : exec.Ends id event) :
    (exec.step event).table.process? id = none := by
  rw [← ProcessTable.estate?_eq_none_iff]
  cases ends with
  | terminated live =>
      rcases step_terminate exec id with
        ⟨missing, _⟩ | ⟨after, effects, ended, same⟩
      · rw [ProcessTable.process?, missing] at live
        exact absurd rfl live
      · rw [same, (coherent.spares_terminate ended).estate?, if_pos rfl]
  | stopped frame readings service called exits =>
      exact coherent.gone_of_exit called exits

theorem Coherent.gone_step (coherent : exec.Coherent)
    (gone : exec.table.process? id = none) {event : Event}
    (withheld : exec.handsOut? event ≠ some id) :
    (exec.step event).table.process? id = none := by
  rw [← ProcessTable.estate?_eq_none_iff] at gone ⊢
  cases coherent.outcome event with
  | spared ending untold spares =>
      rw [spares.estate?, gone]
      exact ite_self none
  | welcomed newId newcomer entry mode created told fresh welcomes =>
      have other : id ≠ newId := by
        rintro rfl
        exact withheld created
      rw [ProcessTable.estate?_eq_none_iff] at gone ⊢
      rw [welcomes.process?, if_neg other]
      exact gone
  | trapped caller context answer told traps => exact traps.gone gone
  | idled context told traps => exact traps.gone gone

theorem Coherent.gone_run (coherent : exec.Coherent)
    (gone : exec.table.process? id = none) {events : List Event}
    (withholds : exec.Withholds id events) :
    (exec.run events).table.process? id = none := by
  induction events generalizing exec with
  | nil => exact gone
  | cons event rest ih =>
      exact ih (coherent.step event) (coherent.gone_step gone withholds.1)
        withholds.2

/-- The table is sound in every reachable state, and a process that has ended
never runs again unless its identifier is handed out anew. -/
theorem table_sound (config : Configuration) (events : List Event) :
    ((boot config).run events).table.Sound ∧
    ∀ id event later, ((boot config).run events).Ends id event →
      (((boot config).run events).step event).Withholds id later →
        (((boot config).run (events ++ event :: later))).table.currentId? ≠
          some id := by
  have coherent := (coherent_boot config).run events
  constructor
  · exact coherent.table.sound
      ((coherent_boot config).settled_run (settled_boot config) events)
  · intro id event later ends withholds running
    rw [run_append, run_cons] at running
    have after := coherent.step event
    have gone := after.gone_run (coherent.gone_of_ends ends) withholds
    exact (after.run later).table.live_of_currentId? running gone

end Executive

end Nucleus
