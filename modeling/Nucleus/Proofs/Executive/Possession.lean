import Nucleus.Proofs.Executive.Ownership
import Nucleus.Proofs.Executive.Replies
import Nucleus.Proofs.Memory.Release

/-!
Possession.  A region stays where it is until its owner gives it back or ends,
and where none starts, one has to be handed out before one does.  Both follow
from what a single event can do to the memory.
-/

namespace Nucleus

namespace Executive

variable {exec : Executive} {frame : Frame} {readings : Readings}
  {process : Process} {call : Syscall} {event : Event} {events : List Event}
  {id : ProcessId} {base : Nat} {slot : Fin 128} {region : Region}

/-- By the event a process gives back the region that starts at an address. -/
inductive Frees (exec : Executive) (id : ProcessId) (base : Nat) :
    Event → Prop
  | call (frame : Frame) (readings : Readings) (process : Process)
      (calls : exec.Calls frame process .heapFree) (caller : process.id = id)
      (address : (frame.context.argument 0).toNat = base) :
      Frees exec id base (.trap ⟨.synchronous, frame, readings⟩)

/-- By the event a region that starts at an address is handed out, for a heap
or for the stack of a new process. -/
inductive Allots (exec : Executive) (base : Nat) : Event → Prop
  | heap (frame : Frame) (readings : Readings) (process : Process)
      (grant : Allocator.Grant) (calls : exec.Calls frame process .heapAlloc)
      (allocated : exec.memory.allocate (frame.context.argument 0).toNat
        process.id = .ok grant)
      (starts : grant.region.base = base) :
      Allots exec base (.trap ⟨.synchronous, frame, readings⟩)
  | stack (entry : UInt64) (stackSize : Nat) (mode : ProcessMode)
      (name : String) (id : ProcessId) (grant : Allocator.Grant)
      (created : exec.handsOut? (.spawn entry stackSize mode name) = some id)
      (allocated : exec.memory.allocate stackSize id = .ok grant)
      (starts : grant.region.base = base) :
      Allots exec base (.spawn entry stackSize mode name)

/-- None of the events is unwanted when it happens. -/
def Avoids (unwanted : Executive → Event → Prop) (exec : Executive) :
    List Event → Prop
  | [] => True
  | event :: rest =>
      ¬ unwanted exec event ∧ Avoids unwanted (exec.step event) rest

inductive Deals (exec : Executive) (event : Event) (after : Executive) : Prop
  | kept (same : after.memory = exec.memory)
  | granted (placement : Allocator.Placement) (owner : ProcessId)
      (fits : exec.memory.Fits placement)
      (allots : exec.Allots (exec.memory.grant placement owner).region.base
        event)
      (same : after.memory = (exec.memory.grant placement owner).memory)
  | freed (slot : Fin 128) (region : Region)
      (holds : exec.memory.Holds slot region)
      (frees : exec.Frees region.owner region.base event)
      (same : after.memory = exec.memory.vacate slot)
  | ended (id : ProcessId) (gone : after.table.process? id = none)
      (same : after.memory = (exec.memory.releaseOwnedBy id).1)

theorem memory_deliver (exec : Executive) (key : KeyEvent) :
    (exec.deliver key).1.memory = exec.memory := by
  rcases deliver_cases exec key with same | ⟨_, _, same⟩
  · rw [same]
  · rw [same]

theorem memory_deliverAll (exec : Executive) (keys : List KeyEvent) :
    (exec.deliverAll keys).1.memory = exec.memory := by
  induction keys generalizing exec with
  | nil => rfl
  | cons key rest ih => exact (ih _).trans (memory_deliver exec key)

theorem memory_dispatchInterrupt (exec : Executive) (readings : Readings)
    (interrupt : Nat) :
    (exec.dispatchInterrupt readings interrupt).1.memory = exec.memory := by
  unfold dispatchInterrupt
  cases exec.router.route interrupt with
  | tick => rfl
  | sleep =>
      dsimp only
      split <;> rfl
  | input => exact memory_deliverAll exec readings.keys
  | device line | unknown number => rfl

theorem Coherent.memory_handleInterrupt (coherent : exec.Coherent)
    (frame : Frame) (readings : Readings) :
    (exec.handleInterrupt frame readings).exec.memory = exec.memory := by
  have captured := (coherent.untouched_capture frame.context).memory
  rw [exec_handleInterrupt]
  split
  · exact (memory_dispatchInterrupt _ _ _).trans captured
  · exact captured

theorem memory_readInput (exec : Executive) (caller : ProcessId)
    (memory : UserMemory) (address : Nat) :
    (exec.readInput caller memory address).exec.memory = exec.memory := by
  unfold readInput
  split
  · rfl
  · split
    · rfl
    · dsimp only
      split <;> rfl

theorem memory_sleep (exec : Executive) (caller : ProcessId)
    (now duration : Nat) :
    (exec.sleep caller now duration).exec.memory = exec.memory := by
  unfold sleep
  split
  · rfl
  · dsimp only
    split <;> rfl

theorem memory_settle (exec : Executive) (caller : ProcessId) (flow : Flow) :
    (exec.settle caller flow).1.memory = exec.memory := by
  cases flow <;> rfl

theorem Calls.memory_handleSynchronous
    (calls : exec.Calls frame process call) (readings : Readings) :
    (exec.handleSynchronous frame readings).exec.memory =
      (exec.service frame readings process call).exec.memory := by
  rw [calls.handleSynchronous_eq, ← service]
  dsimp only
  split
  · rfl
  · exact memory_settle _ _ _

theorem Coherent.deals_heapAlloc (coherent : exec.Coherent)
    (calls : exec.Calls frame process .heapAlloc) (readings : Readings) :
    exec.Deals (.trap ⟨.synchronous, frame, readings⟩)
      (exec.handleSynchronous frame readings).exec := by
  cases coherent.provides calls readings with
  | refused cause refuses kept replied => exact .kept kept
  | granted grant grants given replied low =>
      have allots : exec.Allots grant.region.base
          (.trap ⟨.synchronous, frame, readings⟩) :=
        .heap frame readings process grant calls grants rfl
      obtain ⟨placement, fits, rfl⟩ := Allocator.allocate_eq_ok grants
      exact .granted placement process.id fits allots given

theorem Coherent.deals_heapFree (coherent : exec.Coherent)
    (calls : exec.Calls frame process .heapFree) (readings : Readings) :
    exec.Deals (.trap ⟨.synchronous, frame, readings⟩)
      (exec.handleSynchronous frame readings).exec := by
  have captured := (coherent.untouched_capture frame.context).memory
  have memory := calls.memory_handleSynchronous readings
  have released := released_heapRelease
    (coherent.process?_capture calls.current frame.context)
    (frame.context.argument 0).toNat
  rw [captured] at released
  change _ = ((exec.capture frame.context).heapRelease process.id
    (frame.context.argument 0).toNat).1.memory at memory
  rw [← memory] at released
  generalize left : (exec.handleSynchronous frame readings).exec.memory =
    remaining at released
  generalize ((exec.capture frame.context).heapRelease process.id
    (frame.context.argument 0).toNat).2.2 = status at released
  cases released with
  | ownStack stack => exact .kept left
  | refused cause heap refuses => exact .kept left
  | released slot region heap holds starts owned releases =>
      exact .freed slot region holds
        (.call frame readings process calls owned.symm starts.symm) left

theorem Coherent.deals_terminate (coherent : exec.Coherent)
    {after : Executive} {effects : List Effect}
    (ended : exec.terminate id = .ok (after, effects)) :
    after.table.process? id = none ∧
      after.memory = (exec.memory.releaseOwnedBy id).1 := by
  have gone := (coherent.spares_terminate ended).estate? id
  rw [if_pos rfl, ProcessTable.estate?_eq_none_iff] at gone
  refine ⟨gone, ?_⟩
  obtain ⟨slot, found, rfl | rfl⟩ := terminate_eq_ok ended <;>
    obtain ⟨_, rfl⟩ := ProcessTable.live_of_slotOf? found <;> rfl

theorem Coherent.deals_stop (coherent : exec.Coherent)
    (calls : exec.Calls frame process .stop) (readings : Readings) :
    exec.Deals (.trap ⟨.synchronous, frame, readings⟩)
      (exec.handleSynchronous frame readings).exec := by
  have untouched := coherent.untouched_capture frame.context
  have trapped := calls.handleSynchronous_eq readings
  have served : (exec.capture frame.context).perform readings process.id
      frame.context .stop = (exec.capture frame.context).stop process.id := rfl
  rw [served, stop] at trapped
  cases ended : (exec.capture frame.context).terminate process.id with
  | error cause =>
      rw [ended] at trapped
      rw [trapped]
      exact .kept untouched.memory
  | ok outcome =>
      obtain ⟨gone, memory⟩ :=
        (coherent.capture frame.context).deals_terminate ended
      rw [ended] at trapped
      rw [trapped]
      rw [untouched.memory] at memory
      exact .ended process.id gone memory

theorem Coherent.deals_call (coherent : exec.Coherent)
    (calls : exec.Calls frame process call) (readings : Readings) :
    exec.Deals (.trap ⟨.synchronous, frame, readings⟩)
      (exec.handleSynchronous frame readings).exec := by
  have memory := calls.memory_handleSynchronous readings
  have captured := (coherent.untouched_capture frame.context).memory
  cases call with
  | heapAlloc => exact coherent.deals_heapAlloc calls readings
  | heapFree => exact coherent.deals_heapFree calls readings
  | stop => exact coherent.deals_stop calls readings
  | print =>
      exact .kept (memory.trans
        ((congrArg Executive.memory (exec_print _ _ _ _)).trans captured))
  | readInput =>
      exact .kept (memory.trans ((memory_readInput _ _ _ _).trans captured))
  | drawString =>
      exact .kept (memory.trans
        ((congrArg Executive.memory (exec_drawText _ _ _ _ _ _ _)).trans
          captured))
  | sleep =>
      exact .kept (memory.trans ((memory_sleep _ _ _ _).trans captured))
  | clear | drawPixel | drawLine | fillRect | drawChar | screenSize
  | charSize | yield | uptime => exact .kept (memory.trans captured)

theorem deals_spawn (exec : Executive) (entry : UInt64) (stackSize : Nat)
    (mode : ProcessMode) (name : String) :
    exec.Deals (.spawn entry stackSize mode name)
      (exec.spawn entry stackSize mode name).exec := by
  let request : SpawnRequest := ⟨entry, stackSize, mode, name, exec.exitLink⟩
  have spawned : (exec.spawn entry stackSize mode name).exec.memory =
      (exec.table.create exec.memory request).memory := rfl
  rcases ProcessTable.create_cases exec.table exec.memory request with
    ⟨cause, nextId, same⟩ | ⟨slot, used, placement, _, placed, same⟩
  · rw [same] at spawned
    exact .kept spawned
  · rw [same] at spawned
    have created : exec.handsOut? (.spawn entry stackSize mode name) =
        some exec.table.newId := by
      change ((exec.table.create exec.memory request).outcome.map
        (·.1)).toOption = _
      rw [same]
      rfl
    have allocated : exec.memory.allocate stackSize exec.table.newId =
        .ok (exec.memory.grant placement exec.table.newId) := by
      rw [Allocator.allocate, placed]
    exact .granted placement exec.table.newId
      (Allocator.fits_of_place? placed)
      (.stack entry stackSize mode name _ _ created allocated rfl) spawned

theorem Coherent.deals (coherent : exec.Coherent) (event : Event) :
    exec.Deals event (exec.step event) := by
  cases event with
  | spawn entry stackSize mode name =>
      exact deals_spawn exec entry stackSize mode name
  | install line hook | start => exact .kept rfl
  | focus id =>
      rcases step_focus exec id with same | ⟨after, focused, same⟩
      · rw [same]
        exact .kept rfl
      · obtain ⟨slot, _, rfl⟩ := focus_eq_ok focused
        rw [same]
        exact .kept rfl
  | deliver key => exact .kept (memory_deliver exec key)
  | terminate id =>
      rcases step_terminate exec id with
        ⟨_, same⟩ | ⟨after, effects, ended, same⟩
      · rw [same]
        exact .kept rfl
      · obtain ⟨gone, memory⟩ := coherent.deals_terminate ended
        rw [same]
        exact .ended id gone memory
  | trap arrival =>
      obtain ⟨cause, frame, readings⟩ := arrival
      cases cause with
      | interrupt =>
          exact .kept (coherent.memory_handleInterrupt frame readings)
      | synchronous =>
          cases coherent.judges frame readings with
          | halted kind deserves fatal kept untouched quiet =>
              exact .kept untouched.memory
          | returned process call calls lawful fatal crash_iff =>
              exact coherent.deals_call calls readings

theorem Deals.window {after : Executive} (deals : exec.Deals event after) :
    after.memory.window = exec.memory.window := by
  cases deals with
  | kept same => rw [same]
  | granted placement owner fits allots same =>
      rw [same]
      rfl
  | freed slot region holds frees same =>
      rw [same, Allocator.window_vacate]
  | ended id gone same => rw [same, Allocator.window_releaseOwnedBy]

/-- A region stays with a live process that does not give it back. -/
theorem Deals.holds {after : Executive} (deals : exec.Deals event after)
    (lives : after.table.process? region.owner ≠ none)
    (kept : ¬ exec.Frees region.owner region.base event)
    (holds : exec.memory.Holds slot region) :
    after.memory.Holds slot region := by
  cases deals with
  | kept same =>
      rw [same]
      exact holds
  | granted placement owner fits allots same =>
      rw [same]
      exact fits.holds_grant holds
  | freed freedSlot freedRegion freedHolds frees same =>
      have away : slot ≠ freedSlot := by
        rintro rfl
        obtain rfl : freedRegion = region :=
          Option.some.inj (freedHolds.symm.trans holds)
        exact kept frees
      rw [same, Allocator.holds_vacate]
      exact ⟨away, holds⟩
  | ended id gone same =>
      have foreign : region.owner ≠ id := by
        rintro rfl
        exact lives gone
      rw [same, Allocator.holds_releaseOwnedBy]
      exact ⟨holds, foreign⟩

/-- Where no region starts, none does until one is handed out there. -/
theorem Deals.not_starts {after : Executive} (deals : exec.Deals event after)
    (kept : ¬ exec.Allots base event) (nobody : ¬ exec.memory.Starts base) :
    ¬ after.memory.Starts base := by
  rintro ⟨slot, region, holds, rfl⟩
  cases deals with
  | kept same =>
      rw [same] at holds
      exact nobody ⟨slot, region, holds, rfl⟩
  | granted placement owner fits allots same =>
      rw [same, Allocator.holds_grant] at holds
      rcases holds with ⟨_, rfl⟩ | ⟨_, old⟩
      · exact kept allots
      · exact nobody ⟨slot, region, old, rfl⟩
  | freed freedSlot freedRegion freedHolds frees same =>
      rw [same, Allocator.holds_vacate] at holds
      exact nobody ⟨slot, region, holds.2, rfl⟩
  | ended id gone same =>
      rw [same, Allocator.holds_releaseOwnedBy] at holds
      exact nobody ⟨slot, region, holds.1, rfl⟩

theorem Coherent.holds_run (coherent : exec.Coherent)
    (holds : exec.memory.Holds slot region)
    (lives : exec.LivesThrough region.owner events)
    (avoids : Avoids (fun exec => exec.Frees region.owner region.base) exec
      events) :
    (exec.run events).memory.Holds slot region := by
  induction events generalizing exec with
  | nil => exact holds
  | cons event rest ih =>
      have deals := coherent.deals event
      exact ih (coherent.step event)
        (deals.holds lives.2.now avoids.1 holds) lives.2 avoids.2

theorem Coherent.not_starts_run (coherent : exec.Coherent)
    (nobody : ¬ exec.memory.Starts base)
    (avoids : Avoids (fun exec => exec.Allots base) exec events) :
    ¬ (exec.run events).memory.Starts base := by
  induction events generalizing exec with
  | nil => exact nobody
  | cons event rest ih =>
      have deals := coherent.deals event
      exact ih (coherent.step event) (deals.not_starts avoids.1 nobody)
        avoids.2

theorem Coherent.window_run (coherent : exec.Coherent)
    (events : List Event) :
    (exec.run events).memory.window = exec.memory.window := by
  induction events generalizing exec with
  | nil => rfl
  | cons event rest ih =>
      exact (ih (coherent.step event)).trans (coherent.deals event).window

end Executive

end Nucleus
