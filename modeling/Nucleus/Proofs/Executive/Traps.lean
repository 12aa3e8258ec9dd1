import Nucleus.Proofs.Executive.Calls

/-!
What a trap does to the saved contexts.  The context on entry is kept for
whoever was running; a call that returns puts its value into the copy of the
caller.  Nobody else's context changes, and the frame is left with the context
of whoever runs next.
-/

namespace Nucleus

def Context.answered (context : Context) : Option UInt64 → Context
  | none => context
  | some value => context.setResult value

/-- The value a call returns; a caller that is gone gets none. -/
def Flow.value? : Flow → Option UInt64
  | .resume value | .giveWay value | .block value => some value
  | .exit => none

def Process.withContext (process : Process) (context : Context) : Process :=
  { process with context := context }

namespace ProcessTable

variable {table : ProcessTable}

theorem currentId?_eq_some_iff {id : ProcessId} :
    table.currentId? = some id ↔
      ∃ slot, table.current = some slot ∧ table.slots[slot].id = id := by
  unfold currentId? currentProcess?
  cases table.current <;> simp

theorem currentId?_eq_none_iff :
    table.currentId? = none ↔ table.current = none := by
  unfold currentId? currentProcess?
  cases table.current <;> simp

theorem WellFormed.process?_of_current (wellFormed : table.WellFormed)
    {slot : Fin 16} (current : table.current = some slot) :
    table.process? table.slots[slot].id = some table.slots[slot] :=
  wellFormed.process?_of_live (wellFormed.current_live slot current)

theorem WellFormed.live_of_currentId? (wellFormed : table.WellFormed)
    {id : ProcessId} (running : table.currentId? = some id) :
    table.process? id ≠ none := by
  obtain ⟨slot, current, rfl⟩ := currentId?_eq_some_iff.mp running
  rw [wellFormed.process?_of_current current]
  exact Option.some_ne_none _

/-- The context of one live process has been replaced. -/
structure Rewrites (id : ProcessId) (rewrite : Context → Context)
    (after before : ProcessTable) : Prop where
  amends : Amends after before
  process? : ∀ other, after.process? other =
    if other = id then (before.process? id).map fun process =>
      process.withContext (rewrite process.context)
    else before.process? other

theorem rewrites_updateProcess (table : ProcessTable) (id : ProcessId)
    (rewrite : Context → Context) :
    Rewrites id rewrite (table.updateProcess id fun process =>
      process.withContext (rewrite process.context)) table where
  amends := amends_updateProcess (fun _ => rfl) (fun _ => rfl)
    (fun _ => rfl)
  process? := process?_updateProcess (fun _ => rfl) (fun _ live => live)

section Rewrites

variable {id : ProcessId} {rewrite : Context → Context}
  {after before : ProcessTable}

theorem Rewrites.tenure? (rewrites : Rewrites id rewrite after before) :
    after.tenure? = before.tenure? := by
  funext other
  rw [ProcessTable.tenure?, ProcessTable.tenure?, rewrites.process?]
  split
  · rename_i here
    rw [here, Option.map_map]
    rfl
  · rfl

theorem Rewrites.estate? (rewrites : Rewrites id rewrite after before)
    (other : ProcessId) :
    after.estate? other =
      if other = id then (before.estate? id).map fun process =>
        process.withContext (rewrite process.context)
      else before.estate? other := by
  rw [ProcessTable.estate?, ProcessTable.estate?, rewrites.process?]
  split
  · rw [Option.map_map, Option.map_map]
    rfl
  · rfl

end Rewrites

end ProcessTable

namespace Executive

variable {exec : Executive}

theorem Coherent.capture_cases (coherent : exec.Coherent)
    (context : Context) :
    (exec.table.currentId? = none ∧
      exec.capture context = { exec with idle := context }) ∨
    (∃ holder table, exec.table.currentId? = some holder ∧
      exec.capture context = { exec with table := table } ∧
      ProcessTable.Rewrites holder (fun _ => context) table exec.table) := by
  cases current : exec.table.current with
  | none =>
      left
      refine ⟨ProcessTable.currentId?_eq_none_iff.mpr current, ?_⟩
      rw [capture, current]
  | some slot =>
      right
      have live := coherent.table.current_live slot current
      have found := coherent.table.slotOf?_of_live live
      refine ⟨exec.table.slots[slot].id, _,
        ProcessTable.currentId?_eq_some_iff.mpr ⟨slot, current, rfl⟩, ?_,
        ProcessTable.rewrites_updateProcess exec.table _ fun _ => context⟩
      rw [capture, current, ProcessTable.updateProcess, found]
      rfl

theorem Coherent.of_rewrites {after before : Executive} {id : ProcessId}
    {rewrite : Context → Context} (coherent : before.Coherent)
    (rewrites : ProcessTable.Rewrites id rewrite after.table before.table)
    (memory : after.memory = before.memory) : after.Coherent :=
  coherent.of_tenure? (coherent.table.amend rewrites.amends) rewrites.tenure?
    memory

theorem Coherent.capture (coherent : exec.Coherent) (context : Context) :
    (exec.capture context).Coherent := by
  rcases coherent.capture_cases context with
    ⟨_, same⟩ | ⟨holder, table, _, same, rewrites⟩
  · rw [same]
    exact coherent.of_tenure? coherent.table rfl rfl
  · rw [same]
    exact coherent.of_rewrites rewrites rfl

theorem Coherent.settled_capture (coherent : exec.Coherent)
    (settled : exec.table.Settled) (context : Context) :
    (exec.capture context).table.Settled := by
  rcases coherent.capture_cases context with
    ⟨_, same⟩ | ⟨holder, table, _, same, rewrites⟩
  · rw [same]
    exact settled
  · rw [same]
    exact settled.amend rewrites.amends

theorem rewrites_setResult (exec : Executive) (id : ProcessId)
    (value : UInt64) :
    ProcessTable.Rewrites id (·.setResult value)
      (exec.setResult id value).table exec.table :=
  ProcessTable.rewrites_updateProcess exec.table id (·.setResult value)

structure Traps (holder : Option ProcessId) (context : Context)
    (answer : Option UInt64) (before after : Executive) : Prop where
  coherent : after.Coherent
  others : ∀ id, holder ≠ some id →
    after.table.estate? id = before.table.estate? id
  own : ∀ id process, holder = some id →
    after.table.estate? id = some process →
      ∃ old, before.table.estate? id = some old ∧
        process = old.withContext (context.answered answer)
  idle : after.idle = if holder = none then context else before.idle
  exitLink : after.exitLink = before.exitLink

variable {before middle after : Executive} {holder : Option ProcessId}
  {context : Context} {answer : Option UInt64}

theorem Coherent.traps_capture (coherent : exec.Coherent)
    (context : Context) :
    Traps exec.table.currentId? context none exec (exec.capture context) := by
  have captured := coherent.capture context
  rcases coherent.capture_cases context with
    ⟨idle, same⟩ | ⟨holder, table, running, same, rewrites⟩
  · rw [same] at captured ⊢
    rw [idle]
    refine ⟨captured, fun _ _ => rfl, fun id process held => ?_, rfl, rfl⟩
    cases held
  · rw [same] at captured ⊢
    rw [running]
    refine ⟨captured, fun id away => ?_, fun id process held found => ?_, rfl,
      rfl⟩
    · rw [rewrites.estate?, if_neg fun here => away (congrArg some here.symm)]
    · obtain rfl := Option.some.inj held
      rw [rewrites.estate?, if_pos rfl, Option.map_eq_some_iff] at found
      obtain ⟨old, oldFound, rfl⟩ := found
      exact ⟨old, oldFound, rfl⟩

/-- After the trap's own work others may be spared, or the holder may end. -/
theorem Traps.trans_spares {ending : Option ProcessId}
    (earlier : Traps holder context answer before middle)
    (only : ∀ id, ending = some id → holder = some id)
    (later : Spares ending middle after) :
    Traps holder context answer before after := by
  refine ⟨later.coherent, fun id away => ?_, fun id process held found => ?_,
    later.idle.trans earlier.idle, later.exitLink.trans earlier.exitLink⟩
  · rw [later.estate?, if_neg fun ends => away (only id ends),
      earlier.others id away]
  · rw [later.estate?] at found
    split at found
    · cases found
    · exact earlier.own id process held found

theorem Traps.setResult {caller : ProcessId}
    (earlier : Traps (some caller) context none before middle)
    (value : UInt64) :
    Traps (some caller) context (some value) before
      (middle.setResult caller value) := by
  have rewrites := rewrites_setResult middle caller value
  refine ⟨earlier.coherent.of_rewrites rewrites rfl, fun id away => ?_,
    fun id process held found => ?_, earlier.idle, earlier.exitLink⟩
  · rw [rewrites.estate?, if_neg fun here => away (congrArg some here.symm),
      earlier.others id away]
  · obtain rfl := Option.some.inj held
    rw [rewrites.estate?, if_pos rfl, Option.map_eq_some_iff] at found
    obtain ⟨kept, keptFound, rfl⟩ := found
    obtain ⟨old, oldFound, rfl⟩ := earlier.own caller kept rfl keptFound
    exact ⟨old, oldFound, rfl⟩

theorem Traps.gone (traps : Traps holder context answer before after)
    {id : ProcessId} (gone : before.table.estate? id = none) :
    after.table.estate? id = none := by
  by_cases own : holder = some id
  · cases found : after.table.estate? id with
    | none => rfl
    | some process =>
        obtain ⟨old, oldFound, _⟩ := traps.own id process own found
        rw [gone] at oldFound
        cases oldFound
  · rw [traps.others id own]
    exact gone

theorem Traps.tenure? (traps : Traps holder context answer before after)
    {id : ProcessId} (stays : after.table.process? id ≠ none) :
    after.table.tenure? id = before.table.tenure? id := by
  rw [ProcessTable.tenure?_eq_estate?, ProcessTable.tenure?_eq_estate?]
  by_cases own : holder = some id
  · rw [ne_eq, ← ProcessTable.estate?_eq_none_iff] at stays
    obtain ⟨process, found⟩ := Option.ne_none_iff_exists'.mp stays
    obtain ⟨old, oldFound, rfl⟩ := traps.own id process own found
    rw [found, oldFound]
    rfl
  · rw [traps.others id own]

theorem Coherent.nextContext_of_running (coherent : exec.Coherent)
    {id : ProcessId} (running : exec.table.currentId? = some id) :
    ∃ process, exec.table.process? id = some process ∧
      exec.nextContext = process.context := by
  obtain ⟨slot, current, rfl⟩ :=
    ProcessTable.currentId?_eq_some_iff.mp running
  refine ⟨_, coherent.table.process?_of_current current, ?_⟩
  rw [nextContext, ProcessTable.currentProcess?, current]
  rfl

theorem nextContext_of_idle (idle : exec.table.currentId? = none) :
    exec.nextContext = exec.idle := by
  rw [nextContext, ProcessTable.currentProcess?,
    ProcessTable.currentId?_eq_none_iff.mp idle]
  rfl

theorem exec_handleInterrupt (exec : Executive) (frame : Frame)
    (readings : Readings) :
    (exec.handleInterrupt frame readings).exec =
      match readings.pending with
      | some interrupt =>
          ((exec.capture frame.context).dispatchInterrupt readings
            interrupt).1
      | none => exec.capture frame.context := by
  unfold handleInterrupt
  cases readings.pending <;> rfl

theorem Coherent.traps_handleInterrupt (coherent : exec.Coherent)
    (frame : Frame) (readings : Readings) :
    Traps exec.table.currentId? frame.context none exec
      (exec.handleInterrupt frame readings).exec := by
  have captured := coherent.traps_capture frame.context
  rw [exec_handleInterrupt]
  split
  · rename_i interrupt _
    exact captured.trans_spares (fun _ none => by cases none)
      (captured.coherent.spares_dispatchInterrupt readings interrupt)
  · exact captured

theorem Coherent.settled_handleInterrupt (coherent : exec.Coherent)
    (settled : exec.table.Settled) (frame : Frame) (readings : Readings) :
    (exec.handleInterrupt frame readings).exec.table.Settled := by
  have captured := coherent.settled_capture settled frame.context
  rw [exec_handleInterrupt]
  split
  · exact settled_dispatchInterrupt captured readings _
  · exact captured

/-- The call of the current process, if a synchronous trap is one. -/
def callOf? (exec : Executive) (frame : Frame) (readings : Readings) :
    Option (ProcessId × Service) := do
  let caller ← exec.table.currentId?
  let number ← frame.syndrome.callNumber?
  some (caller, (exec.capture frame.context).serve readings caller
    frame.context number)

def answer? (exec : Executive) (frame : Frame) (readings : Readings) :
    Option UInt64 :=
  match exec.callOf? frame readings with
  | some (_, service) => service.flow.toOption.bind Flow.value?
  | none => none

theorem Coherent.live_capture (coherent : exec.Coherent)
    {caller : ProcessId} (running : exec.table.currentId? = some caller)
    (context : Context) :
    (exec.capture context).table.process? caller ≠ none := by
  have live := coherent.table.live_of_currentId? running
  rcases coherent.capture_cases context with
    ⟨idle, _⟩ | ⟨holder, table, held, same, rewrites⟩
  · rw [running] at idle
    cases idle
  · obtain rfl := Option.some.inj (running.symm.trans held)
    rw [same, ne_eq, rewrites.process?, if_pos rfl, Option.map_eq_none_iff]
    exact live

theorem handleSynchronous_cases (exec : Executive) (frame : Frame)
    (readings : Readings) :
    (exec.table.currentId? = none ∧
      (exec.handleSynchronous frame readings).exec = exec ∧
      (exec.handleSynchronous frame readings).fatal ≠ none ∧
      (exec.handleSynchronous frame readings).effects = []) ∨
    (∃ caller, exec.table.currentId? = some caller ∧
      exec.callOf? frame readings = none ∧
      (exec.handleSynchronous frame readings).exec =
        exec.capture frame.context ∧
      (exec.handleSynchronous frame readings).fatal ≠ none ∧
      (exec.handleSynchronous frame readings).effects = []) ∨
    (∃ caller service, exec.table.currentId? = some caller ∧
      exec.callOf? frame readings = some (caller, service) ∧
      ((∃ kind, service.flow = .error kind ∧
          (exec.handleSynchronous frame readings).exec = service.exec ∧
          (exec.handleSynchronous frame readings).fatal ≠ none ∧
          (exec.handleSynchronous frame readings).effects =
            service.effects) ∨
        ∃ flow, service.flow = .ok flow ∧
          (exec.handleSynchronous frame readings).exec =
            (service.exec.settle caller flow).1 ∧
          (exec.handleSynchronous frame readings).frame = frame.resume
            (exec.handleSynchronous frame readings).exec.nextContext ∧
          (exec.handleSynchronous frame readings).effects =
            service.effects ++ (service.exec.settle caller flow).2)) := by
  unfold handleSynchronous callOf?
  cases current : exec.table.current with
  | none =>
      left
      exact ⟨ProcessTable.currentId?_eq_none_iff.mpr current, rfl,
        Option.some_ne_none _, rfl⟩
  | some slot =>
      right
      have running : exec.table.currentId? = some exec.table.slots[slot].id :=
        ProcessTable.currentId?_eq_some_iff.mpr ⟨slot, current, rfl⟩
      rw [running]
      cases called : frame.syndrome.callNumber? with
      | none =>
          left
          exact ⟨_, rfl, rfl, rfl, Option.some_ne_none _, rfl⟩
      | some number =>
          right
          refine ⟨_, _, rfl, rfl, ?_⟩
          dsimp only
          cases ((exec.capture frame.context).serve readings
              exec.table.slots[slot].id frame.context number).flow with
          | error kind =>
              left
              exact ⟨kind, rfl, rfl, Option.some_ne_none _, rfl⟩
          | ok flow =>
              right
              exact ⟨flow, rfl, rfl, rfl, rfl⟩

theorem exec_handleSynchronous_of_idle
    (idle : exec.table.currentId? = none) (frame : Frame)
    (readings : Readings) :
    (exec.handleSynchronous frame readings).exec = exec := by
  rw [handleSynchronous, ProcessTable.currentId?_eq_none_iff.mp idle]

theorem Coherent.upholds_callOf? (coherent : exec.Coherent) {frame : Frame}
    {readings : Readings} {caller : ProcessId} {service : Service}
    (called : exec.callOf? frame readings = some (caller, service)) :
    exec.table.currentId? = some caller ∧
      Upholds caller (exec.capture frame.context) service := by
  unfold callOf? at called
  cases running : exec.table.currentId? with
  | none =>
      rw [running] at called
      cases called
  | some holder =>
      rw [running] at called
      cases number : frame.syndrome.callNumber? with
      | none =>
          rw [number] at called
          cases called
      | some number' =>
          rw [number] at called
          obtain ⟨rfl, rfl⟩ := Prod.mk.inj (Option.some.inj called)
          exact ⟨rfl, (coherent.capture frame.context).upholds_serve
            (coherent.live_capture running frame.context) readings
            frame.context number'⟩

theorem Coherent.gone_of_exit (coherent : exec.Coherent) {frame : Frame}
    {readings : Readings} {caller : ProcessId} {service : Service}
    (called : exec.callOf? frame readings = some (caller, service))
    (exits : service.flow = .ok .exit) :
    (exec.handleSynchronous frame readings).exec.table.estate? caller =
      none := by
  obtain ⟨running, upholds⟩ := coherent.upholds_callOf? called
  have gone := upholds.spares.estate? caller
  rw [Service.ending, exits, if_pos rfl] at gone
  rcases handleSynchronous_cases exec frame readings with
    ⟨idle, _⟩ | ⟨_, _, missing, _⟩ | ⟨holder, served, _, same, ends⟩
  · rw [running] at idle
    cases idle
  · rw [called] at missing
    cases missing
  · obtain ⟨rfl, rfl⟩ := Prod.mk.inj (Option.some.inj (called.symm.trans same))
    rcases ends with ⟨kind, fails, _⟩ | ⟨flow, flows, exec_eq, _⟩
    · rw [exits] at fails
      cases fails
    · rw [exits] at flows
      rw [exec_eq, ← Except.ok.inj flows]
      exact gone

theorem Traps.settle {caller : ProcessId} {service : Service} {flow : Flow}
    (captured : Traps (some caller) context none before middle)
    (upholds : Upholds caller middle service)
    (flows : service.flow = .ok flow) :
    Traps (some caller) context flow.value? before
      (service.exec.settle caller flow).1 := by
  have served : Traps (some caller) context none before service.exec := by
    refine captured.trans_spares (fun id ends => ?_) upholds.spares
    unfold Service.ending at ends
    split at ends
    · exact ends
    · cases ends
  cases flow with
  | resume value => exact served.setResult value
  | giveWay value | block value =>
      have answered := served.setResult value
      exact answered.trans_spares (fun _ none => by cases none)
        answered.coherent.spares_reschedule
  | exit => exact served

theorem Coherent.traps_handleSynchronous (coherent : exec.Coherent)
    (frame : Frame) (readings : Readings) {caller : ProcessId}
    (running : exec.table.currentId? = some caller) :
    Traps (some caller) frame.context (exec.answer? frame readings) exec
      (exec.handleSynchronous frame readings).exec := by
  have captured := coherent.traps_capture frame.context
  rw [running] at captured
  rcases handleSynchronous_cases exec frame readings with
    ⟨idle, _⟩ | ⟨_, _, called, same, _⟩ | ⟨holder, service, held, called, ends⟩
  · rw [running] at idle
    cases idle
  · rw [same, answer?, called]
    exact captured
  · obtain rfl := Option.some.inj (running.symm.trans held)
    have upholds := (coherent.upholds_callOf? called).2
    rw [answer?, called]
    dsimp only
    rcases ends with ⟨kind, fails, same, _⟩ | ⟨flow, flows, same, _⟩
    · rw [same, fails]
      refine captured.trans_spares (fun id ends => ?_) upholds.spares
      rw [Service.ending, fails] at ends
      cases ends
    · rw [same, flows]
      exact captured.settle upholds flows

theorem settled_settle (exec : Executive) (caller : ProcessId)
    {flow : Flow}
    (settled : (∀ value, flow ≠ .block value) → exec.table.Settled) :
    (exec.settle caller flow).1.table.Settled := by
  cases flow with
  | resume value =>
      have before : exec.table.Settled := settled fun _ => Flow.noConfusion
      exact before.amend (rewrites_setResult exec caller value).amends
  | giveWay value | block value => exact settled_reschedule _
  | exit => exact settled fun _ => Flow.noConfusion

theorem Coherent.settled_handleSynchronous (coherent : exec.Coherent)
    (settled : exec.table.Settled) (frame : Frame) (readings : Readings) :
    (exec.handleSynchronous frame readings).exec.table.Settled := by
  have captured := coherent.settled_capture settled frame.context
  rcases handleSynchronous_cases exec frame readings with
    ⟨_, same, _⟩ | ⟨_, _, _, same, _⟩ | ⟨caller, service, _, called, ends⟩
  · rw [same]
    exact settled
  · rw [same]
    exact captured
  · have upholds := (coherent.upholds_callOf? called).2
    rcases ends with ⟨kind, fails, same, _⟩ | ⟨flow, flows, same, _⟩
    · rw [same]
      refine upholds.settled ?_ captured
      rintro ⟨value, blocks⟩
      rw [fails] at blocks
      cases blocks
    · rw [same]
      apply settled_settle
      intro wakeful
      refine upholds.settled ?_ captured
      rintro ⟨value, blocks⟩
      rw [flows] at blocks
      exact wakeful value (Except.ok.inj blocks)

end Executive

end Nucleus
