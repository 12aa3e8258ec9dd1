import Nucleus.Proofs.Executive.Bystanders
import Nucleus.Proofs.Executive.HeapBase

namespace Nucleus

namespace Allocator

variable {memory : Allocator} {handle other : RegionHandle}
  {region otherRegion : Region}

/-- A live region of the process that is not its stack. -/
def OnHeap (memory : Allocator) (process : Process) (region : Region) :
    Prop :=
  ∃ handle, memory.region? handle = some region ∧
    region.owner = process.id ∧ process.stack ≠ some handle

theorem eq_of_region? (named : memory.region? handle = some region)
    (otherNamed : memory.region? other = some otherRegion)
    (same : handle.slot = other.slot) : handle = other := by
  have generation := (region?_eq_some_iff.mp named).1
  have otherGeneration := (region?_eq_some_iff.mp otherNamed).1
  rw [same] at generation
  cases handle
  cases other
  simp_all

end Allocator

namespace Executive

variable {exec : Executive} {frame : Frame} {readings : Readings}
  {process old new : Process} {call : Syscall} {event : Event}
  {id : ProcessId} {region : Region}

/-- Of the regions of a process its stack is the one that starts at the base of
its stack. -/
theorem Coherent.onHeap_iff (coherent : exec.Coherent)
    (found : exec.table.process? id = some process) :
    exec.memory.OnHeap process region ↔
      ∃ slot, exec.memory.Holds slot region ∧ region.owner = id ∧
        region.base ≠ process.stackBase := by
  obtain ⟨stack, same, named⟩ := coherent.secured_stack found
  obtain rfl := ProcessTable.id_of_process? found
  constructor
  · intro ⟨handle, region?, owned, other⟩
    have holds := Allocator.holds_of_region? region?
    have stands := Allocator.holds_of_region? named
    refine ⟨handle.slot, holds, owned, fun base => other ?_⟩
    obtain ⟨slot, _⟩ := coherent.memory.eq_of_base_eq stands holds base
    rw [same, Allocator.eq_of_region? region? named slot]
  · intro ⟨slot, holds, owned, base⟩
    refine ⟨⟨slot, exec.memory.slots[slot].generation⟩, ?_, owned, ?_⟩
    · exact Allocator.region?_eq_some_iff.mpr ⟨rfl, holds⟩
    · intro stacked
      rw [same, Option.some.injEq] at stacked
      rw [stacked] at named
      have stands := Allocator.holds_of_region? named
      obtain rfl := Option.some.inj (holds.symm.trans stands)
      exact base rfl

inductive Obtains (exec : Executive) (id : ProcessId) : Event → Prop
  | call (frame : Frame) (readings : Readings) (process : Process)
      (grant : Allocator.Grant) (calls : exec.Calls frame process .heapAlloc)
      (caller : process.id = id)
      (allocated : exec.memory.allocate (frame.context.argument 0).toNat id =
        .ok grant) :
      Obtains exec id (.trap ⟨.synchronous, frame, readings⟩)

/-- What an event makes of the heap of a process that survives it, and of the
heap base along with it. -/
inductive Charges (exec : Executive) (event : Event) (after : Executive)
    (old new : Process) : Prop
  | still (kept : new.heapBase = old.heapBase)
      (heap : ∀ region, after.memory.OnHeap new region ↔
        exec.memory.OnHeap old region)
  | given (granted : Region) (obtains : exec.Obtains old.id event)
      (adopted : new.heapBase =
        if old.heapBase = 0 then granted.base else old.heapBase)
      (heap : ∀ region, after.memory.OnHeap new region ↔
        region = granted ∨ exec.memory.OnHeap old region)
  | taken (spent : Region) (frees : exec.Frees old.id spent.base event)
      (had : exec.memory.OnHeap old spent)
      (dropped : new.heapBase =
        if old.heapBase = spent.base then 0 else old.heapBase)
      (heap : ∀ region, after.memory.OnHeap new region ↔
        exec.memory.OnHeap old region ∧ region.base ≠ spent.base)

section Survivor

variable (coherent : exec.Coherent)
  (found : exec.table.process? id = some old)
  (survives : (exec.step event).table.process? id = some new)

include coherent found survives

theorem Coherent.onHeap_step_iff :
    (exec.step event).memory.OnHeap new region ↔
      ∃ slot, (exec.step event).memory.Holds slot region ∧
        region.owner = id ∧ region.base ≠ old.stackBase := by
  have lives : exec.table.process? id ≠ none := by simp [found]
  have stays : (exec.step event).table.process? id ≠ none := by
    simp [survives]
  have tenure := coherent.tenure?_step lives stays
  rw [ProcessTable.tenure?_of_process? found,
    ProcessTable.tenure?_of_process? survives] at tenure
  have stack : new.stackBase = old.stackBase :=
    congrArg Tenure.base (Option.some.inj tenure)
  rw [(coherent.step event).onHeap_iff survives, stack]

/-- The event is somebody else's business. -/
theorem Coherent.charges_of_still
    (kept : (exec.step event).table.heapBase? id = exec.table.heapBase? id)
    (holds_iff : ∀ slot region, region.owner = id →
      ((exec.step event).memory.Holds slot region ↔
        exec.memory.Holds slot region)) :
    exec.Charges event (exec.step event) old new := by
  rw [ProcessTable.heapBase?_of_process? found,
    ProcessTable.heapBase?_of_process? survives] at kept
  refine .still (Option.some.inj kept) fun region => ?_
  rw [coherent.onHeap_step_iff found survives, coherent.onHeap_iff found]
  apply exists_congr
  intro slot
  constructor
  · intro ⟨holds, owned, heap⟩
    exact ⟨(holds_iff slot region owned).mp holds, owned, heap⟩
  · intro ⟨holds, owned, heap⟩
    exact ⟨(holds_iff slot region owned).mpr holds, owned, heap⟩

theorem Coherent.charges_of_passes (passes : Passes exec (exec.step event)) :
    exec.Charges event (exec.step event) old new := by
  apply coherent.charges_of_still found survives (congrFun passes.heapBase? id)
  intro slot region owned
  rw [passes.memory]

theorem Coherent.charges_of_ended {ended : ProcessId}
    (memory : (exec.step event).memory =
      (exec.memory.releaseOwnedBy ended).1)
    (heapBase? : ∀ other, (exec.step event).table.heapBase? other =
      if other = ended then none else exec.table.heapBase? other) :
    exec.Charges event (exec.step event) old new := by
  have away : id ≠ ended := by
    intro here
    have gone := heapBase? id
    rw [if_pos here, ProcessTable.heapBase?_of_process? survives] at gone
    cases gone
  apply coherent.charges_of_still found survives
  · rw [heapBase?, if_neg away]
  · intro slot region owned
    rw [memory, Allocator.holds_releaseOwnedBy, owned]
    exact and_iff_left away

theorem Coherent.charges_of_granted {placement : Allocator.Placement}
    (fits : exec.memory.Fits placement) {owner : ProcessId}
    (away : id ≠ owner)
    (memory : (exec.step event).memory =
      (exec.memory.grant placement owner).memory)
    (heapBase? : (exec.step event).table.heapBase? id =
      exec.table.heapBase? id) :
    exec.Charges event (exec.step event) old new := by
  apply coherent.charges_of_still found survives heapBase?
  intro slot region owned
  rw [memory]
  apply holds_grant_iff_of_foreign fits
  rw [owned]
  exact away

theorem Coherent.charges_of_given {placement : Allocator.Placement}
    (fits : exec.memory.Fits placement) (obtains : exec.Obtains id event)
    (memory : (exec.step event).memory =
      (exec.memory.grant placement id).memory)
    (adopted : (exec.step event).table.heapBase? id =
      some (if old.heapBase = 0 then
        (exec.memory.grant placement id).region.base else old.heapBase)) :
    exec.Charges event (exec.step event) old new := by
  have granted := Allocator.holds_granted exec.memory placement id
  obtain ⟨stackSlot, stack⟩ := coherent.exists_stack found
  have heap : (exec.memory.grant placement id).region.base ≠ old.stackBase :=
    coherent.memory.base_granted_ne fits stack
  rw [ProcessTable.heapBase?_of_process? survives] at adopted
  rw [← ProcessTable.id_of_process? found] at obtains
  refine .given _ obtains (Option.some.inj adopted) fun region => ?_
  rw [coherent.onHeap_step_iff found survives, coherent.onHeap_iff found,
    memory]
  constructor
  · intro ⟨slot, holds, owned, elsewhere⟩
    rcases (Allocator.holds_grant slot region).mp holds with
      ⟨_, same⟩ | ⟨_, held⟩
    · exact .inl same
    · exact .inr ⟨slot, held, owned, elsewhere⟩
  · rintro (rfl | ⟨slot, holds, owned, elsewhere⟩)
    · exact ⟨placement.slot, granted, rfl, heap⟩
    · exact ⟨slot, fits.holds_grant holds, owned, elsewhere⟩

theorem Coherent.charges_of_taken {slot : Fin 128} {spent : Region}
    (holds : exec.memory.Holds slot spent) (owned : spent.owner = id)
    (heap : spent.base ≠ old.stackBase)
    (frees : exec.Frees id spent.base event)
    (vacates : Allocator.Vacates slot spent exec.memory
      (exec.step event).memory)
    (dropped : (exec.step event).table.heapBase? id =
      some (if old.heapBase = spent.base then 0 else old.heapBase)) :
    exec.Charges event (exec.step event) old new := by
  have had : exec.memory.OnHeap old spent :=
    (coherent.onHeap_iff found).mpr ⟨slot, holds, owned, heap⟩
  rw [ProcessTable.heapBase?_of_process? survives] at dropped
  rw [← ProcessTable.id_of_process? found] at frees
  refine .taken spent frees had (Option.some.inj dropped) fun region => ?_
  rw [coherent.onHeap_step_iff found survives, coherent.onHeap_iff found]
  constructor
  · intro ⟨other, stays, owned, elsewhere⟩
    obtain ⟨away, held⟩ := (vacates.holds_iff other region).mp stays
    refine ⟨⟨other, held, owned, elsewhere⟩, fun same => ?_⟩
    exact away (coherent.memory.eq_of_base_eq holds held same).1
  · intro ⟨⟨other, held, owned, elsewhere⟩, different⟩
    refine ⟨other, (vacates.holds_iff other region).mpr ⟨?_, held⟩, owned,
      elsewhere⟩
    rintro rfl
    obtain rfl := Option.some.inj (held.symm.trans holds)
    exact different rfl

end Survivor

section Call

variable (coherent : exec.Coherent)
  (found : exec.table.process? id = some old)
  (survives : (exec.step (.trap ⟨.synchronous, frame, readings⟩)).table.process?
    id = some new)

include coherent found survives

theorem Coherent.charges_heapAlloc
    (calls : exec.Calls frame process .heapAlloc) :
    exec.Charges (.trap ⟨.synchronous, frame, readings⟩)
      (exec.step (.trap ⟨.synchronous, frame, readings⟩)) old new := by
  cases coherent.provides calls readings with
  | refused cause refuses kept replied =>
      exact coherent.charges_of_passes found survives
        (coherent.passes_of_refused calls refuses readings)
  | granted grant grants memory replied low =>
      have bases := coherent.heapBase?_of_granted calls grants readings id
      obtain ⟨placement, fits, rfl⟩ := Allocator.allocate_eq_ok grants
      by_cases here : id = process.id
      · subst here
        have known := coherent.found_of_calls calls
        obtain rfl := Option.some.inj (known.symm.trans found)
        rw [if_pos rfl] at bases
        exact coherent.charges_of_given found survives fits
          (.call frame readings process _ calls rfl grants) memory bases
      · rw [if_neg here] at bases
        exact coherent.charges_of_granted found survives fits here memory bases

theorem Coherent.charges_heapFree
    (calls : exec.Calls frame process .heapFree) :
    exec.Charges (.trap ⟨.synchronous, frame, readings⟩)
      (exec.step (.trap ⟨.synchronous, frame, readings⟩)) old new := by
  have known := coherent.found_of_calls calls
  obtain ⟨status, gives⟩ := coherent.givesBack calls readings
  have owes := (gives.status_iff status).mp rfl
  have bases := gives.heapBase?_eq
  cases owes with
  | ok slot region heap holds starts owned =>
      have vacates := gives.vacates rfl slot region holds starts
      have base := bases id
      rw [← starts] at heap base
      by_cases here : id = process.id
      · subst here
        obtain rfl := Option.some.inj (known.symm.trans found)
        rw [if_pos ⟨rfl, rfl⟩] at base
        exact coherent.charges_of_taken found survives holds owned heap
          (.call frame readings process calls rfl starts.symm) vacates base
      · rw [if_neg fun both => here both.1] at base
        apply coherent.charges_of_still found survives base
        intro other kept keeper
        refine (vacates.holds_iff other kept).trans (and_iff_right_of_imp ?_)
        rintro held rfl
        obtain rfl := Option.some.inj (holds.symm.trans held)
        exact here (keeper.symm.trans owned)
  | stack | foreign | spent | unknown =>
      refine coherent.charges_of_passes found survives ⟨gives.kept nofun, ?_⟩
      funext other
      exact (bases other).trans (if_neg fun both => nomatch both.2)

theorem Coherent.charges_stop (calls : exec.Calls frame process .stop) :
    exec.Charges (.trap ⟨.synchronous, frame, readings⟩)
      (exec.step (.trap ⟨.synchronous, frame, readings⟩)) old new := by
  have passes := coherent.passes_capture frame.context
  have trapped := calls.handleSynchronous_eq readings
  have served : (exec.capture frame.context).perform readings process.id
      frame.context .stop = (exec.capture frame.context).stop process.id := rfl
  rw [served, stop] at trapped
  cases ended : (exec.capture frame.context).terminate process.id with
  | error cause =>
      rw [ended] at trapped
      have same : exec.step (.trap ⟨.synchronous, frame, readings⟩) =
        exec.capture frame.context := congrArg Trap.exec trapped
      apply coherent.charges_of_passes found survives
      rw [same]
      exact passes
  | ok outcome =>
      rw [ended] at trapped
      have same : exec.step (.trap ⟨.synchronous, frame, readings⟩) =
        outcome.1 := congrArg Trap.exec trapped
      have captured := coherent.capture frame.context
      apply coherent.charges_of_ended found survives
      · rw [same, (captured.deals_terminate ended).2, passes.memory]
      · rw [same, ← passes.heapBase?]
        exact captured.heapBase?_terminate ended

theorem Coherent.charges_call (calls : exec.Calls frame process call) :
    exec.Charges (.trap ⟨.synchronous, frame, readings⟩)
      (exec.step (.trap ⟨.synchronous, frame, readings⟩)) old new := by
  have charges (served : Passes (exec.capture frame.context)
      (exec.service frame readings process call).exec) :=
    coherent.charges_of_passes found survives
      (((coherent.passes_capture frame.context).trans served).trans
        (calls.passes_handleSynchronous readings))
  cases call with
  | heapAlloc => exact coherent.charges_heapAlloc found survives calls
  | heapFree => exact coherent.charges_heapFree found survives calls
  | stop => exact coherent.charges_stop found survives calls
  | print => exact charges (passes_print _ _ _ _)
  | readInput => exact charges (passes_readInput _ _ _ _)
  | drawString => exact charges (passes_drawText _ _ _ _ _ _ _)
  | sleep => exact charges (passes_sleep _ _ _ _)
  | clear | drawPixel | drawLine | fillRect | drawChar | screenSize
  | charSize | yield | uptime => exact charges (Passes.refl _)

theorem Coherent.charges_trap :
    exec.Charges (.trap ⟨.synchronous, frame, readings⟩)
      (exec.step (.trap ⟨.synchronous, frame, readings⟩)) old new := by
  by_cases asks : ∃ process call, exec.Calls frame process call
  · obtain ⟨process, call, calls⟩ := asks
    exact coherent.charges_call found survives calls
  · exact coherent.charges_of_passes found survives
      (coherent.passes_of_no_call asks readings)

end Call

theorem Coherent.charges_spawn (coherent : exec.Coherent) {entry : UInt64}
    {stackSize : Nat} {mode : ProcessMode} {name : String}
    (found : exec.table.process? id = some old)
    (survives : (exec.step (.spawn entry stackSize mode name)).table.process?
      id = some new) :
    exec.Charges (.spawn entry stackSize mode name)
      (exec.step (.spawn entry stackSize mode name)) old new := by
  let request : SpawnRequest := ⟨entry, stackSize, mode, name, exec.exitLink⟩
  have memory : (exec.step (.spawn entry stackSize mode name)).memory =
      (exec.table.create exec.memory request).memory := rfl
  have table : (exec.step (.spawn entry stackSize mode name)).table =
      (exec.table.create exec.memory request).table := rfl
  rcases ProcessTable.create_cases exec.table exec.memory request with
    ⟨cause, nextId, same⟩ | ⟨slot, used, placement, vacant, placed, same⟩
  · rw [same] at memory table
    have kept := congrArg ProcessTable.heapBase? table
    exact coherent.charges_of_passes found survives ⟨memory, kept⟩
  · have created : (exec.table.create exec.memory request).outcome =
        .ok (exec.table.newId, slot) := by rw [same]
    have lookup := coherent.table.process?_create created id
    have free := ProcessTable.newId_free
      (coherent.table.slotForNew?_eq_some vacant).1
    have away : id ≠ exec.table.newId := by
      rintro rfl
      rw [ProcessTable.process?, free.2] at found
      cases found
    rw [if_neg away] at lookup
    rw [same] at memory
    apply coherent.charges_of_granted found survives
      (Allocator.fits_of_place? placed) away memory
    rw [table, ProcessTable.heapBase?, lookup, ProcessTable.heapBase?]

theorem Coherent.charges (coherent : exec.Coherent)
    (found : exec.table.process? id = some old)
    (survives : (exec.step event).table.process? id = some new) :
    exec.Charges event (exec.step event) old new := by
  cases event with
  | spawn entry stackSize mode name =>
      exact coherent.charges_spawn found survives
  | install line hook =>
      exact coherent.charges_of_passes found survives ⟨rfl, rfl⟩
  | start =>
      exact coherent.charges_of_passes found survives (passes_reschedule exec)
  | focus target =>
      apply coherent.charges_of_passes found survives
      rcases step_focus exec target with same | ⟨after, focused, same⟩
      · rw [same]
        exact Passes.refl exec
      · obtain ⟨slot, _, rfl⟩ := focus_eq_ok focused
        rw [same]
        exact ⟨rfl, ProcessTable.heapBase?_focusOn slot⟩
  | deliver key =>
      exact coherent.charges_of_passes found survives (passes_deliver exec key)
  | terminate target =>
      rcases step_terminate exec target with
        ⟨_, same⟩ | ⟨after, effects, ended, same⟩
      · apply coherent.charges_of_passes found survives
        rw [same]
        exact Passes.refl exec
      · have memory := (coherent.deals_terminate ended).2
        have bases := coherent.heapBase?_terminate ended
        rw [← same] at memory bases
        exact coherent.charges_of_ended found survives memory bases
  | trap arrival =>
      obtain ⟨cause, frame, readings⟩ := arrival
      cases cause with
      | interrupt =>
          exact coherent.charges_of_passes found survives
            (coherent.passes_handleInterrupt frame readings)
      | synchronous => exact coherent.charges_trap found survives

/-- A process begins without a heap: its stack is all that it owns. -/
theorem Coherent.blank_of_spawn (coherent : exec.Coherent) {entry : UInt64}
    {stackSize : Nat} {mode : ProcessMode} {name : String}
    (unknown : exec.table.process? id = none)
    (found : (exec.step (.spawn entry stackSize mode name)).table.process? id =
      some new) :
    new.heapBase = 0 ∧ ∀ region, ¬ (exec.step
      (.spawn entry stackSize mode name)).memory.OnHeap new region := by
  let request : SpawnRequest := ⟨entry, stackSize, mode, name, exec.exitLink⟩
  have after := coherent.step (.spawn entry stackSize mode name)
  have memory : (exec.step (.spawn entry stackSize mode name)).memory =
      (exec.table.create exec.memory request).memory := rfl
  have table : (exec.step (.spawn entry stackSize mode name)).table =
      (exec.table.create exec.memory request).table := rfl
  have lookup := found
  rw [table] at lookup
  rcases ProcessTable.create_cases exec.table exec.memory request with
    ⟨cause, nextId, same⟩ | ⟨slot, used, placement, vacant, placed, same⟩
  · rw [same] at lookup
    cases unknown.symm.trans lookup
  · have created : (exec.table.create exec.memory request).outcome =
        .ok (exec.table.newId, slot) := by rw [same]
    rw [coherent.table.process?_create created id] at lookup
    split at lookup
    · rename_i here
      rw [same, ProcessTable.slots_seat_self, Option.some.injEq] at lookup
      rw [same] at memory
      refine ⟨by rw [← lookup]; rfl, fun region heap => ?_⟩
      obtain ⟨place, holds, owned, base⟩ := (after.onHeap_iff found).mp heap
      rw [memory, Allocator.holds_grant] at holds
      rcases holds with ⟨_, rfl⟩ | ⟨_, held⟩
      · exact base (by rw [← lookup]; rfl)
      · apply coherent.owned place region held
        rw [owned, ProcessTable.tenure?_eq_none_iff]
        exact unknown
    · cases unknown.symm.trans lookup

theorem Coherent.blank_newcomer (coherent : exec.Coherent)
    (unknown : exec.table.process? id = none)
    (found : (exec.step event).table.process? id = some new) :
    new.heapBase = 0 ∧ ∀ region,
      ¬ (exec.step event).memory.OnHeap new region := by
  have absent := ProcessTable.estate?_eq_none_iff.mpr unknown
  have present : (exec.step event).table.estate? id ≠ none := by
    rw [ne_eq, ProcessTable.estate?_eq_none_iff, found]
    exact Option.some_ne_none new
  cases coherent.outcome event with
  | spared ending untold spares =>
      rw [spares.estate?, absent, ite_self] at present
      exact absurd rfl present
  | welcomed newId newcomer entry mode created told fresh welcomes =>
      cases event with
      | spawn entry stackSize mode name =>
          exact coherent.blank_of_spawn unknown found
      | install | focus | deliver | start | terminate | trap => cases created
  | trapped caller context answer told traps =>
      exact absurd (traps.gone absent) present
  | idled context told traps => exact absurd (traps.gone absent) present

end Executive

end Nucleus
