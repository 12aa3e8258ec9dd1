import Nucleus.Proofs.Executive.Run

namespace Nucleus

namespace Executive

structure Owned (exec : Executive) : Prop where
  owner_live : ∀ slot region, exec.memory.Holds slot region →
    ∃ process, exec.table.process? region.owner = some process
  stack_live : ∀ id process, exec.table.process? id = some process →
    ∃ handle, process.stack = some handle ∧
      exec.memory.region? handle =
        some ⟨process.stackBase, process.stackSize, id⟩
  all_free : exec.table.live = 0 →
    exec.memory.freePages = exec.memory.totalPages

/-- The process does not end during the events. -/
def LivesThrough (exec : Executive) (id : ProcessId) : List Event → Prop
  | [] => exec.table.process? id ≠ none
  | event :: rest =>
      exec.table.process? id ≠ none ∧ (exec.step event).LivesThrough id rest

instance decidableLivesThrough (exec : Executive) (id : ProcessId) :
    (events : List Event) → Decidable (exec.LivesThrough id events)
  | [] => inferInstanceAs (Decidable (_ ≠ none))
  | event :: rest =>
      have := decidableLivesThrough (exec.step event) id rest
      inferInstanceAs (Decidable (_ ∧ _))

variable {exec : Executive} {id : ProcessId}

theorem Coherent.secured_stack (coherent : exec.Coherent)
    {process : Process} (found : exec.table.process? id = some process) :
    ∃ handle, process.stack = some handle ∧
      exec.memory.region? handle =
        some ⟨process.stackBase, process.stackSize, id⟩ := by
  obtain ⟨handle, stack, named⟩ := coherent.secured id process.tenure
    (ProcessTable.tenure?_of_process? found)
  obtain rfl := ProcessTable.id_of_process? found
  exact ⟨handle, stack, named⟩

theorem Coherent.not_holds_of_no_one (coherent : exec.Coherent)
    (noOne : exec.table.live = 0) (slot : Fin 128) (region : Region) :
    ¬ exec.memory.Holds slot region := by
  intro holds
  have ownerLive := coherent.owned slot region holds
  rw [ne_eq, ProcessTable.tenure?_eq_none_iff] at ownerLive
  obtain ⟨process, found⟩ := Option.ne_none_iff_exists'.mp ownerLive
  obtain ⟨place, slotFound, _⟩ := ProcessTable.process?_eq_some found
  have live := (ProcessTable.live_of_slotOf? slotFound).1
  have counted := coherent.table.counted
  rw [noOne] at counted
  have nobody := List.eq_nil_of_length_eq_zero counted.symm
  have member : place ∈ exec.table.liveSlots := Slots.mem_all.mpr live
  rw [nobody] at member
  cases member

theorem Coherent.all_free (coherent : exec.Coherent)
    (noOne : exec.table.live = 0) :
    exec.memory.freePages = exec.memory.totalPages := by
  have unowned : ∑ slot, exec.memory.pagesAt slot = 0 := by
    apply Finset.sum_eq_zero
    intro slot _
    apply Allocator.pagesAt_of_vacant
    rw [Option.eq_none_iff_forall_ne_some]
    exact coherent.not_holds_of_no_one noOne slot
  have conserved := coherent.memory.conserved
  rw [unowned] at conserved
  exact conserved

theorem Coherent.owned_memory (coherent : exec.Coherent) : exec.Owned := by
  constructor
  · intro slot region holds
    have ownerLive := coherent.owned slot region holds
    rw [ne_eq, ProcessTable.tenure?_eq_none_iff] at ownerLive
    exact Option.ne_none_iff_exists'.mp ownerLive
  · intro id process found
    exact coherent.secured_stack found
  · exact coherent.all_free

theorem Coherent.tenure?_step (coherent : exec.Coherent) {event : Event}
    (before : exec.table.process? id ≠ none)
    (after : (exec.step event).table.process? id ≠ none) :
    (exec.step event).table.tenure? id = exec.table.tenure? id := by
  cases coherent.outcome event with
  | spared ending untold spares =>
      rw [ne_eq, ← ProcessTable.estate?_eq_none_iff, spares.estate?] at after
      rw [ProcessTable.tenure?_eq_estate?, ProcessTable.tenure?_eq_estate?,
        spares.estate?]
      by_cases ends : ending = some id
      · rw [if_pos ends] at after
        exact absurd rfl after
      · rw [if_neg ends]
  | welcomed newId newcomer entry mode created told fresh welcomes =>
      have other : id ≠ newId := by
        rintro rfl
        exact before welcomes.unknown
      rw [ProcessTable.tenure?, welcomes.process?, if_neg other]
      rfl
  | trapped caller context answer told traps => exact traps.tenure? after
  | idled context told traps => exact traps.tenure? after

theorem LivesThrough.now {events : List Event}
    (lives : exec.LivesThrough id events) :
    exec.table.process? id ≠ none := by
  cases events with
  | nil => exact lives
  | cons event rest => exact lives.1

theorem Coherent.tenure?_run (coherent : exec.Coherent)
    {events : List Event} (lives : exec.LivesThrough id events) :
    (exec.run events).table.tenure? id = exec.table.tenure? id := by
  induction events generalizing exec with
  | nil => rfl
  | cons event rest ih =>
      rw [run_cons, ih (coherent.step event) lives.2]
      exact coherent.tenure?_step lives.1 lives.2.now

/-- Memory is owned in every reachable state, and the handle of a stack names
the same live region for as long as its process lives. -/
theorem memory_owned (config : Configuration) (events : List Event) :
    ((boot config).run events).Owned ∧
    ∀ id process handle,
      ((boot config).run events).table.process? id = some process →
      process.stack = some handle →
        ∀ later, ((boot config).run events).LivesThrough id later →
          ((boot config).run (events ++ later)).memory.region? handle =
            some ⟨process.stackBase, process.stackSize, id⟩ := by
  have coherent := (coherent_boot config).run events
  refine ⟨coherent.owned_memory, ?_⟩
  intro id process handle found stack later lives
  rw [run_append]
  have kept := coherent.tenure?_run lives
  rw [ProcessTable.tenure?_of_process? found] at kept
  obtain ⟨later', laterStack, named⟩ :=
    (coherent.run later).secured id process.tenure kept
  obtain rfl : handle = later' :=
    Option.some.inj (stack.symm.trans laterStack)
  obtain rfl := ProcessTable.id_of_process? found
  exact named

end Executive

end Nucleus
