import Nucleus.Proofs.Executive.Resumption
import Nucleus.Proofs.Process.Inboxes

/-!
Delivery.  Over every run the rings of the processes are the inboxes that the
events of the run call for: a key goes to whoever has the focus at that moment,
a process takes its keys in the order in which they came, and nothing else
touches what it has yet to read.
-/

namespace Nucleus

open ProcessTable (Posts Retains)

/-- What a call means for the inboxes. -/
def Syscall.happenings (caller : ProcessId) : Syscall → List Happening
  | .readInput => [.read caller]
  | .stop => [.ended caller]
  | _ => []

def Frame.call? (frame : Frame) : Option Syscall :=
  frame.syndrome.callNumber?.bind Syscall.ofNumber?

namespace Executive

/-- What an event means for the inboxes. -/
def happenings (exec : Executive) : Event → List Happening
  | .spawn entry stackSize mode name =>
      (exec.handsOut? (.spawn entry stackSize mode name)).toList.map .began
  | .install _ _ | .start => []
  | .focus id => [.focused id]
  | .deliver key => [.typed key]
  | .terminate id => [.ended id]
  | .trap ⟨.interrupt, _, readings⟩ =>
      if exec.routed? readings = some .input then readings.keys.map .typed
      else []
  | .trap ⟨.synchronous, frame, _⟩ =>
      match exec.table.currentId?, frame.call? with
      | some caller, some call => call.happenings caller
      | _, _ => []

def history (exec : Executive) : List Event → List Happening
  | [] => []
  | event :: rest => exec.happenings event ++ (exec.step event).history rest

variable {exec after : Executive}

theorem retains_reschedule (exec : Executive) :
    Retains exec.reschedule.1.table exec.table :=
  (ProcessTable.restates_advance exec.table).retains

theorem Coherent.retains_capture (coherent : exec.Coherent)
    (context : Context) : Retains (exec.capture context).table exec.table := by
  apply (amends_capture coherent context).retains
  intro slot
  unfold Executive.capture
  split
  · apply ProcessTable.view_update
    exact fun _ => rfl
  · rfl

theorem retains_settle (exec : Executive) (caller : ProcessId) (flow : Flow) :
    Retains (exec.settle caller flow).1.table exec.table := by
  have answered : ∀ value,
      Retains (exec.setResult caller value).table exec.table := fun value =>
    (rewrites_setResult exec caller value).amends.retains
      (ProcessTable.input_updateProcess fun _ => rfl)
  cases flow with
  | resume value => exact answered value
  | giveWay value | block value =>
      exact (retains_reschedule _).trans (answered value)
  | exit => exact Retains.refl exec.table

theorem posts_deliver (wellFormed : exec.table.WellFormed)
    (rings : exec.table.RingsSound) (key : KeyEvent) :
    Posts [.typed key] exec.table (exec.deliver key).1.table := by
  unfold deliver
  cases delivered : exec.table.deliver? key with
  | none => exact ProcessTable.posts_deliver?_of_none rings delivered
  | some delivery => exact wellFormed.posts_deliver? rings delivered

theorem posts_deliverAll (wellFormed : exec.table.WellFormed)
    (rings : exec.table.RingsSound) (keys : List KeyEvent) :
    Posts (keys.map .typed) exec.table (exec.deliverAll keys).1.table := by
  induction keys generalizing exec with
  | nil => exact (Retains.refl exec.table).posts rings
  | cons key rest ih =>
      have first := posts_deliver wellFormed rings key
      exact first.trans
        (ih (wellFormed.amend (amends_deliver exec key)) first.rings)

theorem Coherent.posts_dispatchInterrupt (coherent : exec.Coherent)
    (rings : exec.table.RingsSound) (readings : Readings) (interrupt : Nat) :
    Posts
      (if exec.router.route interrupt = .input then readings.keys.map .typed
        else [])
      exec.table (exec.dispatchInterrupt readings interrupt).1.table := by
  unfold dispatchInterrupt
  cases exec.router.route interrupt with
  | tick => exact (retains_reschedule exec).posts rings
  | sleep =>
      have woken : Retains (exec.wakeSleepers readings.now).1.table
          exec.table := (restates_wakeAll exec.table _).retains
      refine Retains.posts ?_ rings
      dsimp only
      split
      · exact (retains_reschedule _).trans woken
      · exact woken
  | input => exact posts_deliverAll coherent.table rings readings.keys
  | device line | unknown number =>
      exact (Retains.refl exec.table).posts rings

theorem Coherent.posts_terminate (coherent : exec.Coherent)
    (rings : exec.table.RingsSound) {id : ProcessId} {effects : List Effect}
    (ended : exec.terminate id = .ok (after, effects)) :
    Posts [.ended id] exec.table after.table := by
  obtain ⟨slot, found, rfl | rfl⟩ := terminate_eq_ok ended
  · exact coherent.table.posts_clearSlot rings exec.memory found
  · have cleared := coherent.table.posts_clearSlot rings exec.memory found
    exact cleared.trans
      ((retains_reschedule (exec.withdraw id slot)).posts cleared.rings)

theorem Coherent.posts_stop (coherent : exec.Coherent)
    (rings : exec.table.RingsSound) (caller : ProcessId) :
    Posts [.ended caller] exec.table (exec.stop caller).exec.table := by
  unfold stop
  cases ended : exec.terminate caller with
  | ok outcome => exact coherent.posts_terminate rings ended
  | error cause =>
      exact coherent.table.posts_ended_of_missing rings
        (terminate_eq_error ended)

theorem posts_readInput (rings : exec.table.RingsSound) (caller : ProcessId)
    (memory : UserMemory) (address : Nat) :
    Posts [.read caller] exec.table
      (exec.readInput caller memory address).exec.table := by
  unfold readInput
  cases found : exec.table.process? caller with
  | none =>
      refine ProcessTable.posts_read_of_nothing rings fun process held => ?_
      rw [found] at held
      cases held
  | some process =>
      dsimp only
      cases popped : process.input.pop? with
      | none =>
          refine ProcessTable.posts_read_of_nothing rings fun other held => ?_
          rwa [← Option.some.inj (found.symm.trans held)]
      | some taken =>
          -- The ring has lost the event, whether or not the address holds.
          have read := ProcessTable.posts_read rings found popped
          dsimp only
          split <;> exact read

theorem retains_rebase (table : ProcessTable) (caller : ProcessId)
    {change : Process → Process} (rebases : ∀ process, ∃ heapBase,
      change process = { process with heapBase := heapBase }) :
    Retains (table.updateProcess caller change) table := by
  refine (amends_rebase table caller rebases).retains
    (ProcessTable.input_updateProcess fun process => ?_)
  obtain ⟨heapBase, same⟩ := rebases process
  rw [same]

theorem retains_heapAlloc (exec : Executive) (caller : ProcessId)
    (size : Nat) :
    Retains (exec.heapAlloc caller size).exec.table exec.table := by
  unfold heapAlloc
  cases exec.memory.allocate size caller with
  | error cause => exact Retains.refl exec.table
  | ok grant =>
      exact retains_rebase _ _ fun process => process.adoptHeap_eq _

theorem retains_heapFree (exec : Executive) (caller : ProcessId)
    (base : Nat) :
    Retains (exec.heapFree caller base).exec.table exec.table := by
  have freed : (exec.heapFree caller base).exec =
      (exec.heapRelease caller base).1 := rfl
  rcases heapRelease_cases exec caller base with
    same | ⟨_, _, _, _, _, _, _, same⟩
  · rw [freed, same]
    exact Retains.refl exec.table
  · rw [freed, same]
    exact retains_rebase _ _ fun process => process.dropHeap_eq _

theorem exec_print (exec : Executive) (memory : UserMemory)
    (address length : Nat) :
    (exec.print memory address length).exec = exec := by
  unfold print
  split
  · rfl
  · dsimp only
    split <;> rfl

theorem exec_drawText (exec : Executive) (memory : UserMemory)
    (corner : Point) (address length scale : Nat) (colour : UInt32) :
    (exec.drawText memory corner address length scale colour).exec =
      exec := by
  unfold drawText
  dsimp only
  split
  · rfl
  · split <;> rfl

theorem retains_sleep (exec : Executive) (caller : ProcessId)
    (now duration : Nat) :
    Retains (exec.sleep caller now duration).exec.table exec.table := by
  unfold sleep
  split
  · exact Retains.refl exec.table
  · dsimp only
    split
    · exact Retains.refl exec.table
    · exact (ProcessTable.restates_updateState exec.table caller
        (by decide : ProcessState.blocked ≠ .stopped)).retains

theorem Coherent.posts_perform (coherent : exec.Coherent)
    (rings : exec.table.RingsSound) (readings : Readings)
    (caller : ProcessId) (context : Context) (call : Syscall) :
    Posts (call.happenings caller) exec.table
      (exec.perform readings caller context call).exec.table := by
  cases call with
  | readInput => exact posts_readInput rings caller _ _
  | stop => exact coherent.posts_stop rings caller
  | heapAlloc => exact (retains_heapAlloc exec caller _).posts rings
  | heapFree => exact (retains_heapFree exec caller _).posts rings
  | sleep => exact (retains_sleep exec caller _ _).posts rings
  | print =>
      rw [perform, exec_print]
      exact (Retains.refl exec.table).posts rings
  | drawString =>
      rw [perform, exec_drawText]
      exact (Retains.refl exec.table).posts rings
  | clear | drawPixel | drawLine | fillRect | drawChar | screenSize
  | charSize | yield | uptime =>
      exact (Retains.refl exec.table).posts rings

theorem Coherent.posts_serve (coherent : exec.Coherent)
    (rings : exec.table.RingsSound) (readings : Readings)
    (caller : ProcessId) (context : Context) (number : UInt16) :
    Posts (((Syscall.ofNumber? number).map
        (Syscall.happenings caller)).getD [])
      exec.table (exec.serve readings caller context number).exec.table := by
  unfold serve
  cases Syscall.ofNumber? number with
  | none => exact (Retains.refl exec.table).posts rings
  | some call => exact coherent.posts_perform rings readings caller context call

theorem Coherent.posts_handleInterrupt (coherent : exec.Coherent)
    (rings : exec.table.RingsSound) (frame : Frame) (readings : Readings) :
    Posts (exec.happenings (.trap ⟨.interrupt, frame, readings⟩)) exec.table
      (exec.handleInterrupt frame readings).exec.table := by
  have captured := (coherent.retains_capture frame.context).posts rings
  rw [exec_handleInterrupt, happenings, routed?]
  cases readings.pending with
  | none => exact captured
  | some interrupt =>
      have dispatched := (coherent.capture
        frame.context).posts_dispatchInterrupt captured.rings readings interrupt
      rw [router_capture] at dispatched
      rw [Option.map_some]
      simp only [Option.some.injEq]
      exact captured.trans dispatched

section Synchronous

variable {frame : Frame} {readings : Readings}

theorem happenings_of_callOf?_eq_none
    (silent : exec.callOf? frame readings = none) :
    exec.happenings (.trap ⟨.synchronous, frame, readings⟩) = [] := by
  unfold callOf? at silent
  rw [happenings, Frame.call?]
  cases running : exec.table.currentId? with
  | none => rfl
  | some caller =>
      cases numbered : frame.syndrome.callNumber? with
      | none => rfl
      | some number =>
          rw [running, numbered] at silent
          cases silent

theorem Coherent.posts_callOf? (coherent : exec.Coherent)
    (rings : exec.table.RingsSound) {caller : ProcessId} {service : Service}
    (called : exec.callOf? frame readings = some (caller, service)) :
    Posts (exec.happenings (.trap ⟨.synchronous, frame, readings⟩))
      exec.table service.exec.table := by
  have captured := (coherent.retains_capture frame.context).posts rings
  unfold callOf? at called
  cases running : exec.table.currentId? with
  | none =>
      rw [running] at called
      cases called
  | some current =>
      cases numbered : frame.syndrome.callNumber? with
      | none =>
          rw [running, numbered] at called
          cases called
      | some number =>
          rw [running, numbered] at called
          obtain ⟨rfl, rfl⟩ := Prod.mk.inj (Option.some.inj called)
          have served := captured.trans
            ((coherent.capture frame.context).posts_serve captured.rings
              readings current frame.context number)
          rw [happenings, running, Frame.call?, numbered, Option.bind_some]
          cases named : Syscall.ofNumber? number with
          | none | some call =>
              rw [named] at served
              exact served

theorem Coherent.posts_handleSynchronous (coherent : exec.Coherent)
    (rings : exec.table.RingsSound) (frame : Frame) (readings : Readings) :
    Posts (exec.happenings (.trap ⟨.synchronous, frame, readings⟩))
      exec.table (exec.handleSynchronous frame readings).exec.table := by
  rcases handleSynchronous_cases exec frame readings with
    ⟨idle, same, _⟩ | ⟨caller, _, silent, same, _⟩ |
    ⟨caller, service, _, called, ends⟩
  · have silent : exec.callOf? frame readings = none := by
      rw [callOf?, idle]
      rfl
    rw [same, happenings_of_callOf?_eq_none silent]
    exact (Retains.refl exec.table).posts rings
  · rw [same, happenings_of_callOf?_eq_none silent]
    exact (coherent.retains_capture frame.context).posts rings
  · have served := coherent.posts_callOf? rings called
    rcases ends with ⟨_, _, same, _⟩ | ⟨flow, _, same, _⟩
    · -- What a fatal call has done is not taken back.
      rw [same]
      exact served
    · rw [same]
      exact served.followed (retains_settle _ caller flow)

end Synchronous

theorem Coherent.posts_step (coherent : exec.Coherent)
    (rings : exec.table.RingsSound) (event : Event) :
    Posts (exec.happenings event) exec.table (exec.step event).table := by
  cases event with
  | spawn entry stackSize mode name =>
      let request : SpawnRequest :=
        ⟨entry, stackSize, mode, name, exec.exitLink⟩
      have created := coherent.table.posts_create rings exec.memory request
      rw [happenings, handsOut?]
      have outcome : (exec.spawn entry stackSize mode name).outcome =
        (exec.table.create exec.memory request).outcome.map (·.1) := rfl
      rw [outcome]
      cases made : (exec.table.create exec.memory request).outcome with
      | error cause | ok newcomer =>
          rw [made] at created
          exact created
  | install line hook => exact (Retains.refl exec.table).posts rings
  | focus id =>
      rw [Executive.step, focus]
      cases focused : exec.table.focus id with
      | error cause =>
          exact ProcessTable.posts_focus_of_missing rings
            (ProcessTable.focus_eq_error focused)
      | ok table => exact coherent.table.posts_focus rings focused
  | deliver key => exact posts_deliver coherent.table rings key
  | start => exact (retains_reschedule exec).posts rings
  | terminate id =>
      rcases step_terminate exec id with
        ⟨missing, same⟩ | ⟨after, effects, ended, same⟩
      · rw [same]
        exact coherent.table.posts_ended_of_missing rings missing
      · rw [same]
        exact coherent.posts_terminate rings ended
  | trap arrival =>
      obtain ⟨cause, frame, readings⟩ := arrival
      cases cause with
      | interrupt => exact coherent.posts_handleInterrupt rings frame readings
      | synchronous =>
          exact coherent.posts_handleSynchronous rings frame readings

theorem Coherent.posts_run (coherent : exec.Coherent)
    (rings : exec.table.RingsSound) (events : List Event) :
    Posts (exec.history events) exec.table (exec.run events).table := by
  -- Sound rings go along with coherence: only in them is a push an append.
  induction events generalizing exec with
  | nil => exact (Retains.refl exec.table).posts rings
  | cons event rest ih =>
      have first := coherent.posts_step rings event
      exact first.trans (ih (coherent.step event) first.rings)

/-- What comes of a call for the oldest pending event.  The event is taken
before anybody looks at where it should go. -/
structure Fetches (exec : Executive) (frame : Frame) (readings : Readings)
    (process : Process) (trap : Trap) : Prop where
  pending : exec.table.inboxes.inbox? process.id = some process.input.toList
  inboxes : trap.exec.table.inboxes =
    exec.table.inboxes.after (.read process.id)
  nothing : process.input.toList = [] →
    trap.fatal = none ∧
      trap.frame = frame.resume (frame.context.setResult 0) ∧
      commands trap.effects = []
  oldest : ∀ event rest, process.input.toList = event :: rest →
    readings.memory.accessible (frame.context.argument 0).toNat 8 = true →
      trap.fatal = none ∧
        trap.frame = frame.resume (frame.context.setResult 1) ∧
        commands trap.effects =
          [.store (frame.context.argument 0).toNat event.toBytes]
  lost : ∀ event rest, process.input.toList = event :: rest →
    readings.memory.accessible (frame.context.argument 0).toNat 8 = false →
      trap.fatal = some (FatalReport.ofFrame
          (.badUserMemory (frame.context.argument 0).toNat 8) frame) ∧
        commands trap.effects = []

variable {frame : Frame} {readings : Readings} {process : Process}
  {call : Syscall}

theorem Calls.call?_eq (calls : exec.Calls frame process call) :
    frame.call? = some call := by
  rw [Frame.call?, Syndrome.callNumber?_eq, if_pos calls.supervisor,
    calls.named]
  exact Syscall.ofNumber?_number call

/-- A live caller's call takes its oldest event, wherever that should go. -/
theorem readInput_of_pending {caller : ProcessId} (memory : UserMemory)
    (address : Nat) (found : exec.table.process? caller = some process)
    (sound : process.input.Sound) {event : KeyEvent} {rest : List KeyEvent}
    (content : process.input.toList = event :: rest) :
    ∃ taken, exec.readInput caller memory address =
      if memory.accessible address 8 then
        Service.resume taken [.store address event.toBytes] 1
      else ⟨taken, [], .error (.badUserMemory address 8)⟩ := by
  obtain ⟨popped, pops⟩ := sound.pop?_of_cons content
  refine ⟨{ exec with table := exec.table.setInput caller popped }, ?_⟩
  rw [readInput, found]
  dsimp only
  rw [pops]
  dsimp only
  rw [KeyEvent.length_toBytes]
  rfl

theorem readInput_of_empty {caller : ProcessId} (memory : UserMemory)
    (address : Nat) (found : exec.table.process? caller = some process)
    (empty : process.input.toList = []) :
    exec.readInput caller memory address = Service.resume exec [] 0 := by
  rw [readInput, found]
  dsimp only
  rw [KeyRing.pop?_eq_none_iff.mpr empty]

theorem Coherent.fetches (coherent : exec.Coherent)
    (rings : exec.table.RingsSound)
    (calls : exec.Calls frame process .readInput) :
    exec.Fetches frame readings process
      (exec.handleSynchronous frame readings) := by
  have found := coherent.process?_capture calls.current frame.context
  have posts := coherent.posts_handleSynchronous rings frame readings
  rw [happenings, calls.currentId?_eq, calls.call?_eq] at posts
  obtain ⟨slot, pointed, rfl⟩ := Option.map_eq_some_iff.mp calls.current
  refine ⟨?_, posts.inboxes, fun empty => ?_,
    fun event rest content fits => ?_,
    fun event rest content outside => ?_⟩
  · dsimp only [ProcessTable.inboxes]
    rw [coherent.table.process?_of_current pointed]
    rfl
  · have served : exec.service frame readings _ .readInput =
        Service.resume (exec.capture frame.context) [] 0 :=
      readInput_of_empty readings.memory _ found empty
    have returns : exec.Returns frame readings _ .readInput 0 :=
      coherent.returns calls (congrArg Service.flow served)
    refine ⟨returns.fatal, returns.frame_eq, ?_⟩
    rw [returns.commands_eq, served]
    rfl
  · obtain ⟨taken, served⟩ :=
      readInput_of_pending readings.memory _ found (rings slot) content
    rw [if_pos fits] at served
    have returns : exec.Returns frame readings _ .readInput 1 :=
      coherent.returns calls (congrArg Service.flow served)
    refine ⟨returns.fatal, returns.frame_eq, ?_⟩
    rw [returns.commands_eq]
    exact congrArg (commands ·.effects) served
  · obtain ⟨taken, served⟩ :=
      readInput_of_pending readings.memory (frame.context.argument 0).toNat
        found (rings slot) content
    rw [outside, if_neg Bool.false_ne_true] at served
    have trapped := calls.handleSynchronous_eq readings
    rw [perform, served] at trapped
    rw [trapped]
    exact ⟨rfl, rfl⟩

theorem inboxes_boot (config : Configuration) :
    (boot config).table.inboxes = Inboxes.empty := by
  rw [table_boot]
  apply Inboxes.ext
  · decide
  · funext id
    dsimp only [ProcessTable.inboxes]
    rw [ProcessTable.process?_empty]
    rfl

theorem rings_boot (config : Configuration) :
    (boot config).table.RingsSound := by
  rw [table_boot]
  intro slot
  have content : ProcessTable.empty.slots[slot] = Process.vacant :=
    Slots.get_replicate _ _
  rw [content]
  exact KeyRing.sound_empty

/-- In every reachable state the rings hold what the run so far has called for,
and a call for the oldest event gets it, or learns that there is none. -/
theorem input_delivered (config : Configuration) (events : List Event) :
    ((boot config).run events).table.inboxes =
      Inboxes.empty.afterAll ((boot config).history events) ∧
    ∀ frame readings process,
      ((boot config).run events).Calls frame process .readInput →
        ((boot config).run events).Fetches frame readings process
          (((boot config).run events).handleSynchronous frame readings) := by
  have coherent := coherent_boot config
  have posts := coherent.posts_run (rings_boot config) events
  refine ⟨?_, fun frame readings process calls => ?_⟩
  · rw [posts.inboxes, inboxes_boot]
  · exact (coherent.run events).fetches posts.rings calls

/-! A process with the focus has one key to read, and asks for it twice: into
its memory, and to where it has none. -/

namespace OneKey

def config : Configuration where
  memoryBase := 0x48000000
  memorySize := 2 * pageSize
  lines := InterruptLines.unassigned
  idle := Context.zero
  exitLink := 0

def key : KeyEvent := KeyEvent.press 0 KeyEvent.keyA

def events : List Event :=
  [.spawn 0x1000 pageSize .user "reader", .start, .focus ⟨1⟩, .deliver key]

def reading (address : UInt64) : Frame where
  context := Context.zero.setArguments [address]
  syndrome := Syndrome.ofCall Syscall.readInput.number
  faultAddress := 0

def devices : Readings where
  pending := none
  now := 0
  keys := []
  screenSize := (0, 0)
  charSize := TextScale.cell
  memory := UserMemory.zeroed 0x48000000 0x2000

end OneKey

open OneKey in
theorem input_delivered_to_memory :
    ∃ process, process.input.toList = [key] ∧
      ((boot config).run events).Calls (reading 0x48000000) process
        .readInput ∧
      ((boot config).run events).Fetches (reading 0x48000000) devices process
        (((boot config).run events).handleSynchronous (reading 0x48000000)
          devices) := by
  have current : ((boot config).run events).table.currentProcess? =
      some ((boot config).run events).table.slots[(0 : Fin 16)] := by
    decide +kernel
  have calls : ((boot config).run events).Calls (reading 0x48000000) _
      .readInput :=
    ⟨current, by decide, by decide⟩
  exact ⟨_, by decide +kernel, calls,
    (input_delivered config events).2 _ devices _ calls⟩

open OneKey in
/-- A call that is fatal for its address has taken the key all the same. -/
theorem fatal_read_loses_key :
    (((boot config).run events).handleSynchronous (reading 0x1000)
        devices).fatal ≠ none ∧
      (Inboxes.empty.afterAll ((boot config).history events)).inbox? ⟨1⟩ =
        some [key] ∧
      (((boot config).run events).handleSynchronous (reading 0x1000)
        devices).exec.table.inboxes.inbox? ⟨1⟩ = some [] := by
  refine ⟨?_, ?_, ?_⟩ <;> decide +kernel

end Executive

end Nucleus
