import Nucleus.Proofs.Executive.Restitution

/-!
Heap bases.  Every process keeps the address of one region of its heap.  Only
the calls for getting and for giving back a region change it, for their caller,
and nothing else that happens to a live process does.
-/

namespace Nucleus

theorem Process.heapBase_adoptHeap (process : Process) (base : Nat) :
    (process.adoptHeap base).heapBase =
      if process.heapBase = 0 then base else process.heapBase := by
  unfold adoptHeap
  split <;> rfl

namespace ProcessTable

variable {table after before : ProcessTable} {id : ProcessId}
  {process : Process}

theorem heapBase?_of_process? (found : table.process? id = some process) :
    table.heapBase? id = some process.heapBase :=
  congrArg (Option.map Process.heapBase) found

theorem heapBase?_congr
    (sameLive : ∀ slot : Fin 16,
      after.slots[slot].isLive = before.slots[slot].isLive)
    (sameId : ∀ slot : Fin 16, after.slots[slot].id = before.slots[slot].id)
    (sameBase : ∀ slot : Fin 16,
      after.slots[slot].heapBase = before.slots[slot].heapBase) :
    after.heapBase? = before.heapBase? := by
  funext id
  exact map_process?_congr sameLive sameId sameBase id

theorem Restates.heapBase? (restates : Restates after before) :
    after.heapBase? = before.heapBase? := by
  apply heapBase?_congr restates.isLive restates.id
  intro slot
  obtain ⟨state, content⟩ := restates.content slot
  rw [content]

theorem heapBase?_focusOn (slot : Fin 16) :
    (table.focusOn slot).heapBase? = table.heapBase? := by
  apply heapBase?_congr <;> intro other <;> rw [slots_focusOn] <;> rfl

theorem heapBase?_update {slot : Fin 16} {change : Process → Process}
    (sameState : ∀ process, (change process).state = process.state)
    (sameId : ∀ process, (change process).id = process.id)
    (sameBase : ∀ process, (change process).heapBase = process.heapBase) :
    (table.update slot change).heapBase? = table.heapBase? := by
  apply heapBase?_congr _ (view_update sameId) (view_update sameBase)
  apply view_update
  intro process
  rw [Process.isLive, Process.isLive, sameState]

theorem heapBase?_updateProcess {change : Process → Process}
    (sameId : ∀ process, (change process).id = process.id)
    (staysLive : ∀ process, process.isLive = true →
      (change process).isLive = true)
    (sameBase : ∀ process, (change process).heapBase = process.heapBase) :
    (table.updateProcess id change).heapBase? = table.heapBase? := by
  funext other
  simp only [heapBase?, process?_updateProcess sameId staysLive]
  split
  · rename_i here
    simp [here, Option.map_map, Function.comp_def, sameBase]
  · rfl

theorem heapBase?_deliver? {key : KeyEvent} {delivery : Delivery}
    (delivered : table.deliver? key = some delivery) :
    delivery.table.heapBase? = table.heapBase? := by
  obtain ⟨slot, input, _, _, same⟩ := deliver?_eq_some delivered
  rw [same]
  exact heapBase?_update (fun _ => rfl) (fun _ => rfl) (fun _ => rfl)

theorem heapBase?_adoptHeap (found : table.process? id = some process)
    (base : Nat) (other : ProcessId) :
    (table.updateProcess id (·.adoptHeap base)).heapBase? other =
      if other = id then
        some (if process.heapBase = 0 then base else process.heapBase)
      else table.heapBase? other := by
  rw [heapBase?_rebase found fun process => process.adoptHeap_eq base,
    process.heapBase_adoptHeap]

theorem WellFormed.heapBase?_clearSlot (wellFormed : table.WellFormed)
    (memory : Allocator) {slot : Fin 16}
    (live : table.slots[slot].isLive = true) (id : ProcessId) :
    (table.clearSlot memory slot).table.heapBase? id =
      if id = table.slots[slot].id then none else table.heapBase? id := by
  rw [heapBase?, wellFormed.process?_clearSlot memory live]
  split <;> rfl

end ProcessTable

namespace Executive

variable {exec before middle after : Executive} {frame : Frame}
  {readings : Readings} {process : Process} {call : Syscall} {id : ProcessId}

/-- No region and no heap base has changed. -/
structure Passes (before after : Executive) : Prop where
  memory : after.memory = before.memory
  heapBase? : after.table.heapBase? = before.table.heapBase?

theorem Passes.refl (exec : Executive) : Passes exec exec :=
  ⟨rfl, rfl⟩

theorem Passes.trans (earlier : Passes before middle)
    (later : Passes middle after) : Passes before after where
  memory := later.memory.trans earlier.memory
  heapBase? := later.heapBase?.trans earlier.heapBase?

theorem passes_reschedule (exec : Executive) :
    Passes exec exec.reschedule.1 :=
  ⟨rfl, (ProcessTable.restates_advance exec.table).heapBase?⟩

theorem passes_deliver (exec : Executive) (key : KeyEvent) :
    Passes exec (exec.deliver key).1 := by
  rcases deliver_cases exec key with same | ⟨delivery, delivered, same⟩
  · rw [same]
    exact Passes.refl exec
  · rw [same]
    exact ⟨rfl, ProcessTable.heapBase?_deliver? delivered⟩

theorem passes_deliverAll (exec : Executive) (keys : List KeyEvent) :
    Passes exec (exec.deliverAll keys).1 := by
  induction keys generalizing exec with
  | nil => exact Passes.refl exec
  | cons key rest ih => exact (passes_deliver exec key).trans (ih _)

theorem passes_dispatchInterrupt (exec : Executive) (readings : Readings)
    (interrupt : Nat) :
    Passes exec (exec.dispatchInterrupt readings interrupt).1 := by
  have woken : Passes exec (exec.wakeSleepers readings.now).1 :=
    ⟨rfl, (restates_wakeAll exec.table _).heapBase?⟩
  unfold dispatchInterrupt
  cases exec.router.route interrupt with
  | tick => exact passes_reschedule exec
  | sleep =>
      dsimp only
      split
      · exact woken.trans (passes_reschedule _)
      · exact woken
  | input => exact passes_deliverAll exec readings.keys
  | device line | unknown number => exact Passes.refl exec

theorem Coherent.passes_capture (coherent : exec.Coherent)
    (context : Context) : Passes exec (exec.capture context) :=
  ⟨(coherent.untouched_capture context).memory,
    coherent.heapBase?_capture context⟩

theorem Coherent.passes_handleInterrupt (coherent : exec.Coherent)
    (frame : Frame) (readings : Readings) :
    Passes exec (exec.handleInterrupt frame readings).exec := by
  have captured := coherent.passes_capture frame.context
  rw [exec_handleInterrupt]
  split
  · exact captured.trans (passes_dispatchInterrupt _ _ _)
  · exact captured

theorem passes_print (exec : Executive) (memory : UserMemory)
    (address length : Nat) :
    Passes exec (exec.print memory address length).exec := by
  rw [exec_print]
  exact Passes.refl exec

theorem passes_drawText (exec : Executive) (memory : UserMemory)
    (corner : Point) (address length scale : Nat) (colour : UInt32) :
    Passes exec
      (exec.drawText memory corner address length scale colour).exec := by
  rw [exec_drawText]
  exact Passes.refl exec

theorem passes_readInput (exec : Executive) (caller : ProcessId)
    (memory : UserMemory) (address : Nat) :
    Passes exec (exec.readInput caller memory address).exec := by
  have taken : ∀ input : KeyRing,
      (exec.table.updateProcess caller fun process =>
        { process with input := input }).heapBase? = exec.table.heapBase? :=
    fun _ => ProcessTable.heapBase?_updateProcess (fun _ => rfl)
      (fun _ live => live) (fun _ => rfl)
  unfold readInput
  split
  · exact Passes.refl exec
  · split
    · exact Passes.refl exec
    · dsimp only
      split <;> exact ⟨rfl, taken _⟩

theorem passes_sleep (exec : Executive) (caller : ProcessId)
    (now duration : Nat) :
    Passes exec (exec.sleep caller now duration).exec := by
  unfold sleep
  split
  · exact Passes.refl exec
  · dsimp only
    split
    · exact Passes.refl exec
    · exact ⟨rfl, ProcessTable.heapBase?_updateProcess (fun _ => rfl)
        (fun _ _ => rfl) (fun _ => rfl)⟩

theorem passes_settle (exec : Executive) (caller : ProcessId)
    (flow : Flow) : Passes exec (exec.settle caller flow).1 := by
  have answered : ∀ value, Passes exec (exec.setResult caller value) :=
    fun value => ⟨rfl, (rewrites_setResult exec caller value).heapBase?⟩
  cases flow with
  | resume value => exact answered value
  | giveWay value | block value =>
      exact (answered value).trans (passes_reschedule _)
  | exit => exact Passes.refl exec

theorem Calls.passes_handleSynchronous
    (calls : exec.Calls frame process call) (readings : Readings) :
    Passes (exec.service frame readings process call).exec
      (exec.handleSynchronous frame readings).exec := by
  rw [calls.handleSynchronous_eq, ← service]
  dsimp only
  split
  · exact Passes.refl _
  · exact passes_settle _ _ _

/-- A trap that is no call does no more than keep its context. -/
theorem Coherent.passes_of_no_call (coherent : exec.Coherent)
    (nothing : ¬ ∃ process call, exec.Calls frame process call)
    (readings : Readings) :
    Passes exec (exec.handleSynchronous frame readings).exec := by
  have captured := coherent.passes_capture frame.context
  rcases handleSynchronous_cases exec frame readings with
    ⟨_, same, _⟩ | ⟨_, _, _, same, _⟩ | ⟨caller, service, running, called, ends⟩
  · rw [same]
    exact Passes.refl exec
  · rw [same]
    exact captured
  · obtain ⟨_, number, numbered, rfl⟩ := callOf?_eq_some called
    obtain ⟨process, current, rfl⟩ := Option.map_eq_some_iff.mp running
    rw [Syndrome.callNumber?_eq] at numbered
    split at numbered
    · rename_i supervisor
      obtain rfl := Option.some.inj numbered
      cases named : Syscall.ofNumber? frame.syndrome.immediate with
      | some call =>
          exact absurd ⟨process, call, current, supervisor,
            (Syscall.number_of_ofNumber? named).symm⟩ nothing
      | none =>
          simp only [serve, named] at ends
          rcases ends with ⟨_, _, same, _⟩ | ⟨_, flows, _⟩
          · rw [same]
            exact captured
          · cases flows
    · cases numbered

theorem Coherent.heapBase?_terminate (coherent : exec.Coherent)
    {effects : List Effect} (ended : exec.terminate id = .ok (after, effects))
    (other : ProcessId) :
    after.table.heapBase? other =
      if other = id then none else exec.table.heapBase? other := by
  obtain ⟨slot, found, rfl | rfl⟩ := terminate_eq_ok ended <;>
    obtain ⟨live, rfl⟩ := ProcessTable.live_of_slotOf? found
  · exact coherent.table.heapBase?_clearSlot exec.memory live other
  · rw [(passes_reschedule _).heapBase?]
    exact coherent.table.heapBase?_clearSlot exec.memory live other

theorem Coherent.passes_of_refused (coherent : exec.Coherent)
    (calls : exec.Calls frame process .heapAlloc) {cause : MemoryError}
    (refuses : exec.memory.allocate (frame.context.argument 0).toNat
      process.id = .error cause) (readings : Readings) :
    Passes exec (exec.handleSynchronous frame readings).exec := by
  have captured := coherent.passes_capture frame.context
  have served : exec.service frame readings process .heapAlloc =
      (exec.capture frame.context).heapAlloc process.id
        (frame.context.argument 0).toNat := rfl
  simp only [heapAlloc, captured.memory, refuses] at served
  have ends := calls.passes_handleSynchronous readings
  rw [served] at ends
  exact captured.trans ends

theorem Coherent.heapBase?_of_granted (coherent : exec.Coherent)
    (calls : exec.Calls frame process .heapAlloc) {grant : Allocator.Grant}
    (grants : exec.memory.allocate (frame.context.argument 0).toNat
      process.id = .ok grant) (readings : Readings) (other : ProcessId) :
    (exec.handleSynchronous frame readings).exec.table.heapBase? other =
      if other = process.id then
        some (if process.heapBase = 0 then grant.region.base
          else process.heapBase)
      else exec.table.heapBase? other := by
  have memory := (coherent.untouched_capture frame.context).memory
  have served : exec.service frame readings process .heapAlloc =
      (exec.capture frame.context).heapAlloc process.id
        (frame.context.argument 0).toNat := rfl
  simp only [heapAlloc, memory, grants] at served
  have found := coherent.process?_capture calls.current frame.context
  rw [(calls.passes_handleSynchronous readings).heapBase?, served,
    ← coherent.heapBase?_capture frame.context]
  exact ProcessTable.heapBase?_adoptHeap found grant.region.base other

end Executive

end Nucleus
