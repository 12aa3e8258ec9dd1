import Nucleus.Proofs.Memory.Release
import Nucleus.Proofs.Process.Focus
import Nucleus.Proofs.Process.Lifecycle
import Nucleus.Proofs.Process.Selection

/-!
The process table together with the allocator that its stacks come from.  An
action on the two is one of a few small changes, and what all of these keep
holds whatever has been asked of the two.
-/

namespace Nucleus

/-- Changes what a process has of its own: the context it resumes with, its
heap base and its pending input. -/
def Process.revise (process : Process) (change : Process → Process) :
    Process :=
  { process with
    context := (change process).context
    heapBase := (change process).heapBase
    input := (change process).input }

namespace ProcessTable

/-- Whoever has the processor was selected last. -/
def InTurn (table : ProcessTable) : Prop :=
  ∀ slot, table.current = some slot → table.cursor = some slot

theorem inTurn_empty : empty.InTurn := by
  intro slot pointed
  cases pointed

theorem InTurn.advance {table : ProcessTable} (inTurn : table.InTurn) :
    table.advance.1.InTurn := by
  intro slot pointed
  rcases advance_cases table with
    ⟨next, _, same⟩ | ⟨holder, _, _, same⟩ | ⟨same, _⟩
  · rw [same] at pointed ⊢
    exact pointed
  · rw [same] at pointed ⊢
    exact inTurn slot pointed
  · rw [same] at pointed
    cases pointed

end ProcessTable

structure Quarters where
  table : ProcessTable
  memory : Allocator

namespace Quarters

inductive Action
  | request (request : MemoryRequest)
  | create (request : SpawnRequest)
  | terminate (id : ProcessId)
  | focus (id : ProcessId)
  | deliver (event : KeyEvent)
  | decide
  | block (id : ProcessId)
  | wake (id : ProcessId)
  | revise (id : ProcessId) (change : Process → Process)

/-- The two after an action; one that is refused leaves them as they were. -/
def act (quarters : Quarters) : Action → Quarters
  | .request request =>
      { quarters with memory := quarters.memory.after request }
  | .create request =>
      let created := quarters.table.create quarters.memory request
      ⟨created.table, created.memory⟩
  | .terminate id =>
      match quarters.table.terminate quarters.memory id with
      | .ok ended => ⟨ended.table, ended.memory⟩
      | .error _ => quarters
  | .focus id =>
      match quarters.table.focus id with
      | .ok table => { quarters with table := table }
      | .error _ => quarters
  | .deliver event =>
      match quarters.table.deliver? event with
      | some delivery => { quarters with table := delivery.table }
      | none => quarters
  | .decide => { quarters with table := quarters.table.advance.1 }
  | .block id =>
      { quarters with table := quarters.table.updateProcess id fun process =>
          { process with state := .blocked } }
  | .wake id =>
      { quarters with table := quarters.table.updateProcess id fun process =>
          { process with state := .ready } }
  | .revise id change =>
      { quarters with
        table := quarters.table.updateProcess id (·.revise change) }

def actAll (quarters : Quarters) (actions : List Action) : Quarters :=
  actions.foldl act quarters

/-- No process yet, and all of the window free.  Without a usable window there
is no memory at all. -/
def opened (base size : Nat) : Quarters where
  table := ProcessTable.empty
  memory :=
    match Allocator.ofWindow base size with
    | .ok memory => memory
    | .error _ => Allocator.empty

@[simp] theorem actAll_nil (quarters : Quarters) :
    quarters.actAll [] = quarters := rfl

theorem actAll_append (quarters : Quarters) (earlier later : List Action) :
    quarters.actAll (earlier ++ later) =
      (quarters.actAll earlier).actAll later :=
  List.foldl_append

inductive Becomes (before : Quarters) : Quarters → Prop
  | kept : Becomes before before
  | served (request : MemoryRequest) :
      Becomes before ⟨before.table, before.memory.after request⟩
  | renumbered (nextId : UInt16) :
      Becomes before ⟨{ before.table with nextId := nextId }, before.memory⟩
  | seated (request : SpawnRequest) (slot : Fin 16) (used : Nat)
      (placement : Allocator.Placement)
      (found : before.table.slotForNew? = some (slot, used))
      (fits : before.memory.Fits placement) :
      Becomes before
        ⟨before.table.seat slot
            (ProcessTable.newProcess request before.table.newId
              (before.memory.grant placement before.table.newId).handle
              (before.memory.grant placement before.table.newId).region)
            used (before.table.newId.raw + 1),
          (before.memory.grant placement before.table.newId).memory⟩
  | cleared (slot : Fin 16) (live : before.table.slots[slot].isLive = true) :
      Becomes before
        ⟨(before.table.clearSlot before.memory slot).table,
          (before.memory.releaseOwnedBy before.table.slots[slot].id).1⟩
  | focused (slot : Fin 16) (live : before.table.slots[slot].isLive = true) :
      Becomes before ⟨before.table.focusOn slot, before.memory⟩
  | revised (slot : Fin 16) (change : Process → Process)
      (live : before.table.slots[slot].isLive = true) :
      Becomes before ⟨before.table.update slot (·.revise change),
        before.memory⟩
  | restated (slot : Fin 16) (state : ProcessState)
      (live : before.table.slots[slot].isLive = true)
      (stays : state ≠ .stopped) (idle : state ≠ .running) :
      Becomes before ⟨before.table.setState slot state, before.memory⟩
  | decided : Becomes before ⟨before.table.advance.1, before.memory⟩

variable {before after quarters : Quarters}

theorem becomes_create (quarters : Quarters) (request : SpawnRequest) :
    quarters.Becomes (quarters.act (.create request)) := by
  simp only [act]
  rcases ProcessTable.create_cases quarters.table quarters.memory request with
    ⟨cause, nextId, same⟩ | ⟨slot, used, placement, found, placed, same⟩
  · rw [same]
    exact .renumbered nextId
  · rw [same]
    exact .seated request slot used placement found
      (Allocator.fits_of_place? placed)

theorem act_terminate {id : ProcessId} {slot : Fin 16}
    (found : quarters.table.slotOf? id = some slot) :
    quarters.act (.terminate id) =
      ⟨(quarters.table.clearSlot quarters.memory slot).table,
        (quarters.memory.releaseOwnedBy quarters.table.slots[slot].id).1⟩ := by
  simp only [act, ProcessTable.terminate, found]
  rfl

theorem becomes_terminate (quarters : Quarters) (id : ProcessId) :
    quarters.Becomes (quarters.act (.terminate id)) := by
  cases found : quarters.table.slotOf? id with
  | none =>
      simp only [act, ProcessTable.terminate, found]
      exact .kept
  | some slot =>
      rw [act_terminate found]
      exact .cleared slot (ProcessTable.live_of_slotOf? found).1

theorem becomes_focus (quarters : Quarters) (id : ProcessId) :
    quarters.Becomes (quarters.act (.focus id)) := by
  cases outcome : quarters.table.focus id with
  | error cause =>
      simp only [act, outcome]
      exact .kept
  | ok table =>
      obtain ⟨slot, found, rfl⟩ := ProcessTable.focus_eq_ok outcome
      simp only [act, outcome]
      exact .focused slot (ProcessTable.live_of_slotOf? found).1

theorem becomes_deliver (quarters : Quarters) (event : KeyEvent) :
    quarters.Becomes (quarters.act (.deliver event)) := by
  cases outcome : quarters.table.deliver? event with
  | none =>
      simp only [act, outcome]
      exact .kept
  | some delivery =>
      obtain ⟨slot, input, live, _, same⟩ :=
        ProcessTable.deliver?_eq_some outcome
      simp only [act, outcome, same]
      exact .revised slot (fun process => { process with input := input }) live

theorem becomes_restate (quarters : Quarters) (id : ProcessId)
    {state : ProcessState} (stays : state ≠ .stopped)
    (idle : state ≠ .running) :
    quarters.Becomes ⟨quarters.table.updateProcess id fun process =>
      { process with state := state }, quarters.memory⟩ := by
  rcases ProcessTable.updateState_cases quarters.table id state with
    same | ⟨slot, live, same⟩
  · rw [same]
    exact .kept
  · rw [same]
    exact .restated slot state live stays idle

theorem becomes_revise (quarters : Quarters) (id : ProcessId)
    (change : Process → Process) :
    quarters.Becomes (quarters.act (.revise id change)) := by
  simp only [act, ProcessTable.updateProcess]
  cases found : quarters.table.slotOf? id with
  | none => exact .kept
  | some slot =>
      exact .revised slot change (ProcessTable.live_of_slotOf? found).1

theorem becomes_act (quarters : Quarters) (action : Action) :
    quarters.Becomes (quarters.act action) := by
  cases action with
  | request request => exact .served request
  | create request => exact becomes_create quarters request
  | terminate id => exact becomes_terminate quarters id
  | focus id => exact becomes_focus quarters id
  | deliver event => exact becomes_deliver quarters event
  | decide => exact .decided
  | block id => exact becomes_restate quarters id (by decide) (by decide)
  | wake id => exact becomes_restate quarters id (by decide) (by decide)
  | revise id change => exact becomes_revise quarters id change

theorem actAll_induction {motive : Quarters → Prop}
    (keeps : ∀ before after, Becomes before after → motive before →
      motive after)
    (start : motive quarters) (actions : List Action) :
    motive (quarters.actAll actions) := by
  induction actions generalizing quarters with
  | nil => exact start
  | cons action rest ih =>
      exact ih (keeps quarters _ (becomes_act quarters action) start)

structure Sound (quarters : Quarters) : Prop where
  table : quarters.table.WellFormed
  memory : quarters.memory.Layout

theorem sound_opened (base size : Nat) : (opened base size).Sound := by
  refine ⟨ProcessTable.wellFormed_empty, ?_⟩
  cases accepted : Allocator.ofWindow base size with
  | error cause =>
      simp only [opened, accepted]
      exact Allocator.Layout.empty
  | ok memory =>
      simp only [opened, accepted]
      exact Allocator.Layout.ofWindow accepted

theorem amends_revise {table : ProcessTable} {slot : Fin 16}
    (live : table.slots[slot].isLive = true) (change : Process → Process) :
    ProcessTable.Amends (table.update slot (·.revise change)) table :=
  ProcessTable.amends_update live (fun _ => rfl) (fun _ => rfl)
    (fun _ => rfl)

theorem Becomes.sound (becomes : Becomes before after)
    (sound : before.Sound) : after.Sound := by
  obtain ⟨table, memory⟩ := sound
  cases becomes with
  | kept => exact ⟨table, memory⟩
  | served request => exact ⟨table, memory.after request⟩
  | renumbered nextId => exact ⟨{ table with }, memory⟩
  | seated request slot used placement found fits =>
      obtain ⟨vacant, grows, small, inside⟩ :=
        table.slotForNew?_eq_some found
      exact ⟨table.seat vacant grows small inside
        (ProcessTable.newId_free vacant) rfl rfl, memory.grant fits⟩
  | cleared slot live =>
      exact ⟨table.clearSlot before.memory live, memory.releaseOwnedBy _⟩
  | focused slot live => exact ⟨table.focusOn live, memory⟩
  | revised slot change live =>
      exact ⟨table.amend (amends_revise live change), memory⟩
  | restated slot state live stays idle =>
      exact ⟨table.setState live stays idle, memory⟩
  | decided => exact ⟨table.advance, memory⟩

theorem sound_actAll (base size : Nat) (actions : List Action) :
    ((opened base size).actAll actions).Sound :=
  actAll_induction (fun _ _ becomes => becomes.sound)
    (sound_opened base size) actions

theorem Becomes.window (becomes : Becomes before after) :
    after.memory.window = before.memory.window := by
  cases becomes with
  | served request => exact Allocator.window_after before.memory request
  | cleared slot live => exact Allocator.window_releaseOwnedBy _ _
  | kept | renumbered | seated | focused | revised | restated | decided => rfl

theorem Becomes.used_le (becomes : Becomes before after)
    (sound : before.Sound) : before.table.used ≤ after.table.used := by
  cases becomes with
  | seated request slot used placement found fits =>
      exact (sound.table.slotForNew?_eq_some found).2.1
  | decided => exact (ProcessTable.counters_advance before.table).1.ge
  | kept | served | renumbered | cleared | focused | revised | restated =>
      exact Nat.le_refl _

theorem Becomes.inTurn (becomes : Becomes before after)
    (inTurn : before.table.InTurn) : after.table.InTurn := by
  cases becomes with
  | cleared slot live =>
      intro other pointed
      have kept : (before.table.clearSlot before.memory slot).table.current =
        some other := pointed
      exact inTurn other (ProcessTable.current_clearSlot kept).2
  | decided => exact inTurn.advance
  | kept | served | renumbered | seated | focused | revised | restated =>
      exact inTurn

end Quarters

end Nucleus
