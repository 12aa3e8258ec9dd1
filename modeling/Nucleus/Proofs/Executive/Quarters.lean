import Nucleus.Proofs.Executive.Delivery
import Nucleus.Proofs.Process.Quarters

/-!
The executive touches its table and its memory by actions on the two only.  So
whatever all actions keep holds of them in every reachable state.
-/

namespace Nucleus

namespace Quarters

variable {first second third : Quarters}

def Leads (before after : Quarters) : Prop :=
  ∃ actions, before.actAll actions = after

theorem Leads.refl (quarters : Quarters) : Leads quarters quarters :=
  ⟨[], rfl⟩

theorem Leads.trans (earlier : Leads first second)
    (later : Leads second third) : Leads first third := by
  obtain ⟨before, rfl⟩ := earlier
  obtain ⟨after, rfl⟩ := later
  exact ⟨before ++ after, actAll_append first before after⟩

theorem leads_act (quarters : Quarters) (action : Action) :
    Leads quarters (quarters.act action) :=
  ⟨[action], rfl⟩

theorem Leads.induction {motive : Quarters → Prop}
    (leads : Leads first second)
    (keeps : ∀ before after, Becomes before after → motive before →
      motive after) (start : motive first) : motive second := by
  obtain ⟨actions, rfl⟩ := leads
  exact actAll_induction keeps start actions

end Quarters

namespace Executive

open Quarters (Leads leads_act)

def quarters (exec : Executive) : Quarters :=
  ⟨exec.table, exec.memory⟩

variable {exec after : Executive} {id : ProcessId}

theorem leads_reschedule (exec : Executive) :
    Leads exec.quarters exec.reschedule.1.quarters :=
  leads_act exec.quarters .decide

theorem leads_deliver (exec : Executive) (key : KeyEvent) :
    Leads exec.quarters (exec.deliver key).1.quarters := by
  have acted := leads_act exec.quarters (.deliver key)
  rcases deliver_cases exec key with same | ⟨delivery, delivered, same⟩
  · rw [same]
    exact Leads.refl exec.quarters
  · simp only [Quarters.act, quarters, delivered] at acted
    rw [same]
    exact acted

theorem leads_deliverAll (exec : Executive) (keys : List KeyEvent) :
    Leads exec.quarters (exec.deliverAll keys).1.quarters := by
  induction keys generalizing exec with
  | nil => exact Leads.refl exec.quarters
  | cons key rest ih => exact (leads_deliver exec key).trans (ih _)

theorem leads_focus (focused : exec.focus id = .ok after) :
    Leads exec.quarters after.quarters := by
  have acted := leads_act exec.quarters (.focus id)
  unfold focus at focused
  cases outcome : exec.table.focus id with
  | error cause =>
      rw [outcome] at focused
      cases focused
  | ok table =>
      simp only [Quarters.act, quarters, outcome] at acted
      rw [outcome] at focused
      obtain rfl := Except.ok.inj focused
      exact acted

theorem leads_withdraw {slot : Fin 16}
    (found : exec.table.slotOf? id = some slot) :
    Leads exec.quarters (exec.withdraw id slot).quarters := by
  have acted := leads_act exec.quarters (.terminate id)
  have here : exec.quarters.table.slotOf? id = some slot := found
  rw [Quarters.act_terminate here] at acted
  exact acted

theorem leads_terminate {effects : List Effect}
    (ended : exec.terminate id = .ok (after, effects)) :
    Leads exec.quarters after.quarters := by
  obtain ⟨slot, found, rfl | rfl⟩ := terminate_eq_ok ended
  · exact leads_withdraw found
  · exact (leads_withdraw found).trans (leads_reschedule _)

theorem leads_spawn (exec : Executive) (entry : UInt64) (stackSize : Nat)
    (mode : ProcessMode) (name : String) :
    Leads exec.quarters
      (exec.spawn entry stackSize mode name).exec.quarters :=
  leads_act exec.quarters
    (.create ⟨entry, stackSize, mode, name, exec.exitLink⟩)

theorem leads_wakeAll {table : ProcessTable} (wellFormed : table.WellFormed)
    (memory : Allocator) (ids : List ProcessId) :
    Leads ⟨table, memory⟩ ⟨(wakeAll table ids).1, memory⟩ := by
  refine (wakeAll_induction (motive := fun woken => woken.WellFormed ∧
    Leads ⟨table, memory⟩ ⟨woken, memory⟩) ?_
    ⟨wellFormed, Leads.refl _⟩ ids).2
  rintro middle slot ⟨middleFormed, leads⟩ blocked
  have live := live_of_blocked blocked
  refine ⟨middleFormed.setState live (by decide) (by decide), ?_⟩
  have acted := leads_act ⟨middle, memory⟩ (.wake middle.slots[slot].id)
  simp only [Quarters.act, ProcessTable.updateProcess,
    middleFormed.slotOf?_of_live live] at acted
  exact leads.trans acted

theorem Coherent.leads_dispatchInterrupt (coherent : exec.Coherent)
    (readings : Readings) (interrupt : Nat) :
    Leads exec.quarters
      (exec.dispatchInterrupt readings interrupt).1.quarters := by
  have woken : Leads exec.quarters
      (exec.wakeSleepers readings.now).1.quarters :=
    leads_wakeAll coherent.table exec.memory _
  unfold dispatchInterrupt
  cases exec.router.route interrupt with
  | tick => exact leads_reschedule exec
  | sleep =>
      dsimp only
      split
      · exact woken.trans (leads_reschedule _)
      · exact woken
  | input => exact leads_deliverAll exec readings.keys
  | device line | unknown number => exact Leads.refl exec.quarters

theorem Coherent.leads_capture (coherent : exec.Coherent)
    (context : Context) :
    Leads exec.quarters (exec.capture context).quarters := by
  unfold Executive.capture
  cases current : exec.table.current with
  | none => exact Leads.refl exec.quarters
  | some slot =>
      have live := coherent.table.current_live slot current
      have acted := leads_act exec.quarters (.revise exec.table.slots[slot].id
        fun process => { process with context := context })
      simp only [Quarters.act, quarters, ProcessTable.updateProcess,
        coherent.table.slotOf?_of_live live] at acted
      exact acted

theorem Coherent.leads_handleInterrupt (coherent : exec.Coherent)
    (frame : Frame) (readings : Readings) :
    Leads exec.quarters (exec.handleInterrupt frame readings).exec.quarters := by
  have captured := coherent.leads_capture frame.context
  rw [exec_handleInterrupt]
  split
  · exact captured.trans ((coherent.capture
      frame.context).leads_dispatchInterrupt readings _)
  · exact captured

theorem leads_rebase (exec : Executive) (id : ProcessId) (memory : Allocator)
    {change : Process → Process} (rebases : ∀ process, ∃ heapBase,
      change process = { process with heapBase := heapBase }) :
    Leads ⟨exec.table, memory⟩
      ⟨exec.table.updateProcess id change, memory⟩ := by
  have same : (fun process => Process.revise process change) = change := by
    funext process
    obtain ⟨heapBase, changed⟩ := rebases process
    rw [Process.revise, changed]
  have acted := leads_act ⟨exec.table, memory⟩ (.revise id change)
  simp only [Quarters.act, same] at acted
  exact acted

theorem leads_heapAlloc (exec : Executive) (caller : ProcessId)
    (size : Nat) :
    Leads exec.quarters (exec.heapAlloc caller size).exec.quarters := by
  have asked := leads_act exec.quarters (.request (.allocate size caller))
  unfold heapAlloc
  cases allocated : exec.memory.allocate size caller with
  | error cause => exact Leads.refl exec.quarters
  | ok grant =>
      simp only [Quarters.act, quarters, Allocator.after, allocated] at asked
      exact asked.trans (leads_rebase exec caller grant.memory fun process =>
        process.adoptHeap_eq grant.region.base)

theorem leads_heapFree (exec : Executive) (caller : ProcessId)
    (base : Nat) :
    Leads exec.quarters (exec.heapFree caller base).exec.quarters := by
  have asked := leads_act exec.quarters (.request (.releaseAt base caller))
  change Leads exec.quarters (exec.heapRelease caller base).1.quarters
  unfold heapRelease
  cases exec.table.process? caller with
  | none => exact Leads.refl exec.quarters
  | some process =>
      dsimp only
      split
      · exact Leads.refl exec.quarters
      · cases released : exec.memory.releaseAt base caller with
        | error cause => exact Leads.refl exec.quarters
        | ok memory =>
            simp only [Quarters.act, quarters, Allocator.after, released]
              at asked
            exact asked.trans (leads_rebase exec caller memory
              fun process => process.dropHeap_eq base)

theorem leads_readInput (exec : Executive) (caller : ProcessId)
    (memory : UserMemory) (address : Nat) :
    Leads exec.quarters
      (exec.readInput caller memory address).exec.quarters := by
  unfold readInput
  split
  · exact Leads.refl exec.quarters
  · split
    · exact Leads.refl exec.quarters
    · rename_i input _
      have taken := leads_act exec.quarters (.revise caller fun process =>
        { process with input := input })
      dsimp only
      split <;> exact taken

theorem leads_sleep (exec : Executive) (caller : ProcessId)
    (now duration : Nat) :
    Leads exec.quarters (exec.sleep caller now duration).exec.quarters := by
  unfold sleep
  split
  · exact Leads.refl exec.quarters
  · dsimp only
    split
    · exact Leads.refl exec.quarters
    · exact leads_act exec.quarters (.block caller)

theorem leads_stop (exec : Executive) (caller : ProcessId) :
    Leads exec.quarters (exec.stop caller).exec.quarters := by
  unfold stop
  split
  · rename_i ended
    exact leads_terminate ended
  · exact Leads.refl exec.quarters

theorem leads_perform (exec : Executive) (readings : Readings)
    (caller : ProcessId) (context : Context) (call : Syscall) :
    Leads exec.quarters
      (exec.perform readings caller context call).exec.quarters := by
  cases call with
  | heapAlloc => exact leads_heapAlloc exec caller _
  | heapFree => exact leads_heapFree exec caller _
  | print =>
      rw [perform, exec_print]
      exact Leads.refl exec.quarters
  | readInput => exact leads_readInput exec caller _ _
  | drawString =>
      rw [perform, exec_drawText]
      exact Leads.refl exec.quarters
  | sleep => exact leads_sleep exec caller _ _
  | stop => exact leads_stop exec caller
  | clear | drawPixel | drawLine | fillRect | drawChar | screenSize
  | charSize | yield | uptime => exact Leads.refl exec.quarters

theorem leads_serve (exec : Executive) (readings : Readings)
    (caller : ProcessId) (context : Context) (number : UInt16) :
    Leads exec.quarters
      (exec.serve readings caller context number).exec.quarters := by
  unfold serve
  cases Syscall.ofNumber? number with
  | none => exact Leads.refl exec.quarters
  | some call => exact leads_perform exec readings caller context call

theorem leads_settle (exec : Executive) (caller : ProcessId) (flow : Flow) :
    Leads exec.quarters (exec.settle caller flow).1.quarters := by
  have answered : ∀ value,
      Leads exec.quarters (exec.setResult caller value).quarters :=
    fun value => leads_act exec.quarters (.revise caller fun process =>
      { process with context := process.context.setResult value })
  cases flow with
  | resume value => exact answered value
  | giveWay value | block value =>
      exact (answered value).trans (leads_reschedule _)
  | exit => exact Leads.refl exec.quarters

theorem Coherent.leads_handleSynchronous (coherent : exec.Coherent)
    (frame : Frame) (readings : Readings) :
    Leads exec.quarters
      (exec.handleSynchronous frame readings).exec.quarters := by
  have captured := coherent.leads_capture frame.context
  rcases handleSynchronous_cases exec frame readings with
    ⟨_, same, _⟩ | ⟨_, _, _, same, _⟩ | ⟨caller, service, _, called, ends⟩
  · rw [same]
    exact Leads.refl exec.quarters
  · rw [same]
    exact captured
  · obtain ⟨_, number, _, rfl⟩ := callOf?_eq_some called
    have served := captured.trans
      (leads_serve _ readings caller frame.context number)
    rcases ends with ⟨kind, _, same, _⟩ | ⟨flow, _, same, _⟩
    · rw [same]
      exact served
    · rw [same]
      exact served.trans (leads_settle _ caller flow)

theorem Coherent.leads_step (coherent : exec.Coherent) (event : Event) :
    Leads exec.quarters (exec.step event).quarters := by
  cases event with
  | spawn entry stackSize mode name =>
      exact leads_spawn exec entry stackSize mode name
  | install line hook => exact Leads.refl exec.quarters
  | focus id =>
      rcases step_focus exec id with same | ⟨after, focused, same⟩
      · rw [same]
        exact Leads.refl exec.quarters
      · rw [same]
        exact leads_focus focused
  | deliver key => exact leads_deliver exec key
  | start => exact leads_reschedule exec
  | terminate id =>
      rcases step_terminate exec id with
        ⟨_, same⟩ | ⟨after, effects, ended, same⟩
      · rw [same]
        exact Leads.refl exec.quarters
      · rw [same]
        exact leads_terminate ended
  | trap arrival =>
      obtain ⟨cause, frame, readings⟩ := arrival
      cases cause with
      | interrupt => exact coherent.leads_handleInterrupt frame readings
      | synchronous => exact coherent.leads_handleSynchronous frame readings

theorem Coherent.leads_run (coherent : exec.Coherent) (events : List Event) :
    Leads exec.quarters (exec.run events).quarters := by
  induction events generalizing exec with
  | nil => exact Leads.refl exec.quarters
  | cons event rest ih =>
      exact (coherent.leads_step event).trans (ih (coherent.step event))

theorem quarters_boot (config : Configuration) :
    (boot config).quarters =
      Quarters.opened config.memoryBase config.memorySize := by
  unfold boot configure Quarters.opened
  cases Allocator.ofWindow config.memoryBase config.memorySize with
  | error cause => rfl
  | ok memory => rfl

theorem leads_boot (config : Configuration) (events : List Event) :
    Leads (Quarters.opened config.memoryBase config.memorySize)
      ((boot config).run events).quarters := by
  rw [← quarters_boot]
  exact (coherent_boot config).leads_run events

theorem inTurn_run (config : Configuration) (events : List Event) :
    ((boot config).run events).table.InTurn :=
  (leads_boot config events).induction
    (motive := fun quarters => quarters.table.InTurn)
    (fun _ _ becomes => becomes.inTurn) ProcessTable.inTurn_empty

end Executive

end Nucleus
