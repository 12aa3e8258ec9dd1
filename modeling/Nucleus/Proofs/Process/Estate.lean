import Nucleus.Proofs.Process.Focus
import Nucleus.Proofs.Process.Lifecycle
import Nucleus.Proofs.Process.Selection

/-!
The estate of a process is what it keeps while others run: everything except
its state, its focus, its pending input and its heap base.  Of all changes to
the table only a process's own traps, its beginning and its end touch it.
-/

namespace Nucleus

def Process.estate (process : Process) : Process :=
  { process with
    state := .ready
    heapBase := 0
    input := KeyRing.empty
    focused := false }

namespace ProcessTable

variable {table : ProcessTable}

/-- The estate of the live process with an identifier. -/
def estate? (table : ProcessTable) (id : ProcessId) : Option Process :=
  (table.process? id).map Process.estate

theorem estate?_eq_none_iff {id : ProcessId} :
    table.estate? id = none ↔ table.process? id = none :=
  Option.map_eq_none_iff

theorem estate?_congr {after before : ProcessTable}
    (sameLive : ∀ slot : Fin 16,
      after.slots[slot].isLive = before.slots[slot].isLive)
    (sameEstate : ∀ slot : Fin 16,
      after.slots[slot].estate = before.slots[slot].estate) :
    after.estate? = before.estate? := by
  funext id
  have sameId : ∀ slot : Fin 16,
      after.slots[slot].estate.id = before.slots[slot].estate.id :=
    fun slot => by rw [sameEstate]
  exact map_process?_congr sameLive sameId sameEstate id

theorem Restates.estate? {after before : ProcessTable}
    (restates : Restates after before) : after.estate? = before.estate? := by
  apply estate?_congr restates.isLive
  intro slot
  obtain ⟨state, content⟩ := restates.content slot
  rw [content]
  rfl

theorem estate?_update {slot : Fin 16} {change : Process → Process}
    (sameState : ∀ process, (change process).state = process.state)
    (sameEstate : ∀ process, (change process).estate = process.estate) :
    (table.update slot change).estate? = table.estate? := by
  apply estate?_congr
  · apply view_update
    intro process
    rw [Process.isLive, Process.isLive, sameState]
  · exact view_update sameEstate

theorem estate?_updateProcess {id : ProcessId} {change : Process → Process}
    (sameState : ∀ process, (change process).state = process.state)
    (sameEstate : ∀ process, (change process).estate = process.estate) :
    (table.updateProcess id change).estate? = table.estate? := by
  unfold updateProcess
  cases table.slotOf? id with
  | none => rfl
  | some slot => exact estate?_update sameState sameEstate

theorem estate?_focusOn (slot : Fin 16) :
    (table.focusOn slot).estate? = table.estate? := by
  apply estate?_congr
  · intro other
    rw [slots_focusOn]
    rfl
  · intro other
    rw [slots_focusOn]
    rfl

theorem estate?_deliver? {event : KeyEvent} {delivery : Delivery}
    (delivered : table.deliver? event = some delivery) :
    delivery.table.estate? = table.estate? := by
  obtain ⟨slot, input, _, _, same⟩ := deliver?_eq_some delivered
  rw [same]
  exact estate?_update (fun _ => rfl) (fun _ => rfl)

theorem WellFormed.process?_eq_some_iff (wellFormed : table.WellFormed)
    {id : ProcessId} {process : Process} :
    table.process? id = some process ↔
      ∃ slot : Fin 16, table.slots[slot] = process ∧
        process.isLive = true ∧ process.id = id := by
  constructor
  · intro found
    obtain ⟨slot, slotFound, rfl⟩ := process?_eq_some found
    exact ⟨slot, rfl, live_of_slotOf? slotFound⟩
  · rintro ⟨slot, rfl, live, rfl⟩
    exact wellFormed.process?_of_live live

theorem process?_updateProcess {id : ProcessId} {change : Process → Process}
    (sameId : ∀ process, (change process).id = process.id)
    (staysLive : ∀ process, process.isLive = true →
      (change process).isLive = true)
    (other : ProcessId) :
    (table.updateProcess id change).process? other =
      if other = id then (table.process? id).map change
      else table.process? other := by
  unfold updateProcess
  cases found : table.slotOf? id with
  | none =>
      by_cases here : other = id
      · rw [if_pos here, here, process?, found]
        rfl
      · rw [if_neg here]
  | some slot =>
      have live := (live_of_slotOf? found).1
      have sameSlot : (table.update slot change).slotOf? other =
          table.slotOf? other := by
        apply slotOf?_congr _ (view_update sameId)
        intro any
        rw [slots_update]
        split
        · rename_i here
          rw [here, live, staysLive _ live]
        · rfl
      rw [process?, sameSlot]
      by_cases here : other = id
      · rw [if_pos here, here, found, process?_of_slotOf? found,
          Option.map_some, Option.map_some, slots_update, if_pos rfl]
      · rw [if_neg here, process?]
        cases otherFound : table.slotOf? other with
        | none => rfl
        | some place =>
            have away : place ≠ slot := by
              rintro rfl
              have placed := (live_of_slotOf? otherFound).2
              rw [(live_of_slotOf? found).2] at placed
              exact here placed.symm
            rw [Option.map_some, Option.map_some, slots_update, if_neg away]

theorem WellFormed.process?_clearSlot (wellFormed : table.WellFormed)
    (memory : Allocator) {slot : Fin 16}
    (live : table.slots[slot].isLive = true) (id : ProcessId) :
    (table.clearSlot memory slot).table.process? id =
      if id = table.slots[slot].id then none else table.process? id := by
  have cleared := wellFormed.clearSlot memory live
  ext process
  rw [cleared.process?_eq_some_iff]
  constructor
  · rintro ⟨other, rfl, otherLive, rfl⟩
    obtain ⟨away, same⟩ := slots_clearSlot_of_live otherLive
    rw [same] at otherLive ⊢
    have named : table.slots[other].id ≠ table.slots[slot].id :=
      fun equal => away (wellFormed.distinct other slot otherLive live equal)
    rw [if_neg named]
    exact wellFormed.process?_of_live otherLive
  · intro found
    split at found
    · cases found
    · rename_i named
      obtain ⟨other, rfl, otherLive, rfl⟩ :=
        wellFormed.process?_eq_some_iff.mp found
      have away : other ≠ slot := fun same => named (by rw [same])
      refine ⟨other, ?_, otherLive, rfl⟩
      rw [slots_clearSlot, if_neg away]

theorem WellFormed.process?_create (wellFormed : table.WellFormed)
    {memory : Allocator} {request : SpawnRequest} {id : ProcessId}
    {slot : Fin 16}
    (created : (table.create memory request).outcome = .ok (id, slot))
    (other : ProcessId) :
    (table.create memory request).table.process? other =
      if other = id then
        some (table.create memory request).table.slots[slot]
      else table.process? other := by
  have after := wellFormed.create memory request
  rcases create_cases table memory request with
    ⟨cause, nextId, same⟩ | ⟨seat, used, placement, found, _, same⟩
  · rw [same] at created
    cases created
  · rw [same] at created after ⊢
    obtain ⟨rfl, rfl⟩ := Prod.mk.inj (Except.ok.inj created)
    have vacant := (wellFormed.slotForNew?_eq_some found).1
    have free := newId_free vacant
    dsimp only at after ⊢
    ext process
    rw [after.process?_eq_some_iff]
    constructor
    · rintro ⟨place, rfl, placeLive, rfl⟩
      by_cases here : place = seat
      · rw [here, slots_seat_self]
        exact if_pos rfl
      · rw [slots_seat_of_ne here] at placeLive ⊢
        rw [if_neg (free.id_ne wellFormed placeLive)]
        exact wellFormed.process?_of_live placeLive
    · intro held
      split at held
      · rename_i named
        obtain rfl := Option.some.inj held
        rw [slots_seat_self, named]
        exact ⟨seat, slots_seat_self, rfl, rfl⟩
      · obtain ⟨place, rfl, placeLive, rfl⟩ :=
          wellFormed.process?_eq_some_iff.mp held
        have away : place ≠ seat := (ne_of_live vacant placeLive).symm
        exact ⟨place, slots_seat_of_ne away, placeLive, rfl⟩

end ProcessTable

end Nucleus
