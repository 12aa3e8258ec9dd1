import Nucleus.Proofs.Executive.Holdings

/-!
What a heap base tells.  As long as it is not zero, a region of its process
starts there.  But it is reset when that one region is given back, whatever else
the process owns, and from then on it is zero until the process asks for more.
-/

namespace Nucleus

theorem Allocator.windowBase_le_base_grant (memory : Allocator)
    (placement : Placement) (owner : ProcessId) :
    memory.windowBase ≤ (memory.grant placement owner).region.base :=
  Nat.le_add_right _ _

namespace Executive

variable {exec : Executive} {process old new : Process} {event : Event}
  {id : ProcessId}

/-- The process gives back the region at its heap base. -/
def Unseats (exec : Executive) (id : ProcessId) (event : Event) : Prop :=
  ∃ process, exec.table.process? id = some process ∧
    process.heapBase ≠ 0 ∧ exec.Frees id process.heapBase event

/-- At some event the process gives back the region at its heap base, and it
lives on without being given another region. -/
def Forgets (exec : Executive) (id : ProcessId) : List Event → Prop
  | [] => False
  | event :: rest =>
      exec.Unseats id event ∧ (exec.step event).LivesThrough id rest ∧
          Avoids (fun exec => exec.Obtains id) (exec.step event) rest ∨
        (exec.step event).Forgets id rest

theorem livesThrough_concat (exec : Executive) (id : ProcessId)
    (events : List Event) (event : Event) :
    exec.LivesThrough id (events ++ [event]) ↔
      exec.LivesThrough id events ∧
        (exec.run (events ++ [event])).table.process? id ≠ none := by
  induction events generalizing exec with
  | nil => exact Iff.rfl
  | cons first rest ih =>
      simp only [List.cons_append, LivesThrough, run_cons, ih, and_assoc]

theorem avoids_concat (unwanted : Executive → Event → Prop)
    (exec : Executive) (events : List Event) (event : Event) :
    Avoids unwanted exec (events ++ [event]) ↔
      Avoids unwanted exec events ∧ ¬ unwanted (exec.run events) event := by
  induction events generalizing exec with
  | nil => simp [Avoids]
  | cons first rest ih =>
      simp only [List.cons_append, Avoids, run_cons, ih, and_assoc]

theorem forgets_concat (exec : Executive) (id : ProcessId)
    (events : List Event) (event : Event) :
    exec.Forgets id (events ++ [event]) ↔
      (exec.run (events ++ [event])).table.process? id ≠ none ∧
        (exec.Forgets id events ∧ ¬ (exec.run events).Obtains id event ∨
          (exec.run events).Unseats id event) := by
  induction events generalizing exec with
  | nil => simp [Forgets, LivesThrough, Avoids, and_comm]
  | cons first rest ih =>
      simp only [List.cons_append, Forgets, run_cons, ih, avoids_concat,
        livesThrough_concat]
      tauto

structure TellsHeap (exec : Executive) (process : Process) (forgets : Prop) :
    Prop where
  base : process.heapBase ≠ 0 → ∃ region,
    exec.memory.OnHeap process region ∧ region.base = process.heapBase
  zero_iff : process.heapBase = 0 ↔
    (∀ region, ¬ exec.memory.OnHeap process region) ∨ forgets

section Step

variable (coherent : exec.Coherent)
  (found : exec.table.process? id = some old)
  (survives : (exec.step event).table.process? id = some new)

include coherent found survives

theorem Coherent.heapBase_of_obtains (window : exec.memory.windowBase ≠ 0)
    (obtains : exec.Obtains id event) : new.heapBase ≠ 0 := by
  cases obtains with
  | call frame readings process grant calls caller grants =>
      subst caller
      have known := coherent.found_of_calls calls
      obtain rfl := Option.some.inj (known.symm.trans found)
      have bases := coherent.heapBase?_of_granted calls grants readings
        process.id
      have after : (exec.handleSynchronous frame readings).exec.table.heapBase?
        process.id = some new.heapBase :=
          ProcessTable.heapBase?_of_process? survives
      rw [after, if_pos rfl, Option.some.injEq] at bases
      obtain ⟨placement, fits, rfl⟩ := Allocator.allocate_eq_ok grants
      have above :=
        exec.memory.windowBase_le_base_grant placement process.id
      rw [bases]
      split
      · omega
      · assumption

theorem Coherent.heapBase_of_unseats {forgets : Prop}
    (tells : exec.TellsHeap old forgets) (unseats : exec.Unseats id event) :
    new.heapBase = 0 := by
  obtain ⟨process, known, based, frees⟩ := unseats
  obtain rfl := Option.some.inj (known.symm.trans found)
  obtain ⟨region, heap, starts⟩ := tells.base based
  obtain ⟨slot, holds, owned, elsewhere⟩ :=
    (coherent.onHeap_iff found).mp heap
  cases frees with
  | call frame readings caller calls named address =>
      subst named
      have same := Option.some.inj ((coherent.found_of_calls calls).symm.trans
        found)
      subst same
      obtain ⟨status, gives⟩ := coherent.givesBack calls readings
      rw [address] at gives
      rw [starts] at elsewhere
      obtain rfl : status = .ok := (gives.status_iff .ok).mpr
        (.ok slot region elsewhere holds starts owned)
      have bases := gives.heapBase?_eq caller.id
      have after : (exec.handleSynchronous frame readings).exec.table.heapBase?
        caller.id = some new.heapBase :=
          ProcessTable.heapBase?_of_process? survives
      rw [after, if_pos ⟨rfl, rfl⟩, if_pos rfl] at bases
      exact Option.some.inj bases

theorem Coherent.tellsHeap_of_survivor (window : exec.memory.windowBase ≠ 0)
    {forgets : Prop} (tells : exec.TellsHeap old forgets) :
    (exec.step event).TellsHeap new
      (forgets ∧ ¬ exec.Obtains id event ∨ exec.Unseats id event) := by
  have obtained := coherent.heapBase_of_obtains found survives window
  have unseated := coherent.heapBase_of_unseats found survives tells
  obtain rfl := ProcessTable.id_of_process? found
  cases coherent.charges found survives with
  | still kept heap =>
      constructor
      · simpa only [kept, heap] using tells.base
      · have zero_iff := tells.zero_iff
        simp only [kept, heap] at obtained unseated ⊢
        tauto
  | given granted obtains adopted heap =>
      have based := obtained obtains
      constructor
      · intro _
        by_cases before : old.heapBase = 0
        · rw [if_pos before] at adopted
          exact ⟨granted, (heap granted).mpr (.inl rfl), adopted.symm⟩
        · rw [if_neg before] at adopted
          obtain ⟨region, held, starts⟩ := tells.base before
          exact ⟨region, (heap region).mpr (.inr held),
            starts.trans adopted.symm⟩
      · refine iff_of_false based ?_
        rintro (nothing | ⟨_, never⟩ | unseats)
        · exact nothing granted ((heap granted).mpr (.inl rfl))
        · exact never obtains
        · exact based (unseated unseats)
  | taken spent frees had dropped heap =>
      have based : new.heapBase ≠ 0 → ∃ region,
          (exec.step event).memory.OnHeap new region ∧
            region.base = new.heapBase := by
        intro based
        by_cases here : old.heapBase = spent.base
        · exact absurd (dropped.trans (if_pos here)) based
        · rw [if_neg here] at dropped
          rw [dropped] at based ⊢
          obtain ⟨region, held, starts⟩ := tells.base based
          refine ⟨region, (heap region).mpr ⟨held, ?_⟩, starts⟩
          rwa [starts]
      refine ⟨based, ?_⟩
      constructor
      · intro zero
        right
        -- If it was zero before, the region that is gone was not missed.
        by_cases before : old.heapBase = 0
        · rcases tells.zero_iff.mp before with nothing | forgets
          · exact absurd had (nothing spent)
          · exact .inl ⟨forgets, fun obtains => obtained obtains zero⟩
        · by_cases here : old.heapBase = spent.base
          · rw [← here] at frees
            exact .inr ⟨old, found, before, frees⟩
          · exact absurd (dropped.symm.trans zero)
              (by rwa [if_neg here])
      · rintro (nothing | ⟨forgets, _⟩ | unseats)
        · by_contra other
          obtain ⟨region, held, _⟩ := based other
          exact nothing region held
        · rw [dropped, tells.zero_iff.mpr (.inr forgets), ite_self]
        · exact unseated unseats

end Step

/-- What a new process has at its heap base is not what an earlier one with its
identifier has forgotten. -/
theorem Coherent.tellsHeap_of_newcomer (coherent : exec.Coherent)
    (unknown : exec.table.process? id = none)
    (found : (exec.step event).table.process? id = some new)
    (forgets : Prop) : (exec.step event).TellsHeap new forgets := by
  obtain ⟨blank, nothing⟩ := coherent.blank_newcomer unknown found
  exact ⟨fun based => absurd blank based, iff_of_true blank (.inl nothing)⟩

theorem Coherent.windowBase_run (coherent : exec.Coherent)
    (events : List Event) :
    (exec.run events).memory.windowBase = exec.memory.windowBase :=
  congrArg Prod.fst (coherent.window_run events)

theorem Coherent.tellsHeap_run (coherent : exec.Coherent)
    (window : exec.memory.windowBase ≠ 0)
    (nobody : exec.table.process? id = none) (events : List Event)
    (found : (exec.run events).table.process? id = some process) :
    (exec.run events).TellsHeap process (exec.Forgets id events) := by
  -- On the last event: what has been forgotten is known from those before.
  induction events using List.reverseRecOn generalizing process with
  | nil => cases nobody.symm.trans found
  | append_singleton events event ih =>
      have stays : (exec.run (events ++ [event])).table.process? id ≠ none := by
        simp [found]
      have before := coherent.run events
      rw [forgets_concat, and_iff_right stays]
      rw [run_append] at found ⊢
      cases known : (exec.run events).table.process? id with
      | none => exact before.tellsHeap_of_newcomer known found _
      | some old =>
          rw [← coherent.windowBase_run events] at window
          exact before.tellsHeap_of_survivor known found window (ih known)

/-- In every reachable state with a window that does not start at zero, a heap
base other than zero is where a live region starts that is owned by the process
and is not its stack.  It is zero exactly if there is no such region, or if the
process has given back the one at its heap base and been given none since. -/
theorem heap_base_tells (config : Configuration) (events : List Event)
    (window : ((boot config).run events).memory.windowBase ≠ 0)
    (id : ProcessId) (process : Process)
    (found : ((boot config).run events).table.process? id = some process) :
    ((boot config).run events).TellsHeap process
      ((boot config).Forgets id events) := by
  have coherent := coherent_boot config
  rw [coherent.windowBase_run] at window
  apply coherent.tellsHeap_run window _ events found
  rw [table_boot, ProcessTable.process?_empty]

/-! A process takes two pages and gives back the first. -/

namespace TwoPages

open SharedWindow (calling devices)

def events : List Event :=
  [.spawn 0x1000 pageSize .user "holder", .start,
    .trap ⟨.synchronous, calling .heapAlloc 0x1000, devices⟩,
    .trap ⟨.synchronous, calling .heapAlloc 0x1000, devices⟩,
    .trap ⟨.synchronous, calling .heapFree 0x48001000, devices⟩]

end TwoPages

open TwoPages in
theorem heap_base_zero_beside_region :
    let exec := (boot SharedWindow.config).run events
    exec.memory.windowBase ≠ 0 ∧ ∃ holder,
      exec.table.process? ⟨1⟩ = some holder ∧ holder.heapBase = 0 ∧
        exec.memory.OnHeap holder ⟨0x48002000, 0x1000, ⟨1⟩⟩ := by
  intro exec
  refine ⟨?_, exec.table.slots[(0 : Fin 16)], ?_, ?_, ⟨2, 0⟩, ?_, ?_, ?_⟩ <;>
    decide +kernel

open TwoPages in
theorem heap_base_forgotten :
    let exec := (boot SharedWindow.config).run events
    exec.memory.windowBase ≠ 0 ∧ ∃ holder,
      exec.table.process? ⟨1⟩ = some holder ∧
        exec.TellsHeap holder
          ((boot SharedWindow.config).Forgets ⟨1⟩ events) := by
  intro exec
  have window : exec.memory.windowBase ≠ 0 := by decide +kernel
  have found : exec.table.process? ⟨1⟩ =
    some exec.table.slots[(0 : Fin 16)] := by decide +kernel
  exact ⟨window, _, found,
    heap_base_tells SharedWindow.config events window ⟨1⟩ _ found⟩

end Executive

end Nucleus
