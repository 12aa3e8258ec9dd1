import Nucleus.Proofs.Executive.Population

namespace Nucleus

theorem Process.adoptHeap_eq (process : Process) (base : Nat) :
    ∃ heapBase, process.adoptHeap base =
      { process with heapBase := heapBase } := by
  unfold adoptHeap
  split
  · exact ⟨base, rfl⟩
  · exact ⟨process.heapBase, rfl⟩

theorem Process.dropHeap_eq (process : Process) (base : Nat) :
    ∃ heapBase, process.dropHeap base =
      { process with heapBase := heapBase } := by
  unfold dropHeap
  split
  · exact ⟨0, rfl⟩
  · exact ⟨process.heapBase, rfl⟩

namespace Service

/-- Who is gone after a call. -/
def ending (service : Service) (caller : ProcessId) : Option ProcessId :=
  match service.flow with
  | .ok .exit => some caller
  | _ => none

def Blocks (service : Service) : Prop :=
  ∃ value, service.flow = .ok (.block value)

end Service

namespace Executive

structure Upholds (caller : ProcessId) (before : Executive)
    (service : Service) : Prop where
  spares : Spares (service.ending caller) before service.exec
  settled : ¬ service.Blocks → before.table.Settled →
    service.exec.table.Settled

variable {exec : Executive} {caller : ProcessId}

/-- A call that changes nothing. -/
theorem Coherent.upholds_of_same (coherent : exec.Coherent)
    {service : Service} (same : service.exec = exec)
    (stays : service.ending caller = none) :
    Upholds caller exec service := by
  constructor
  · rw [same, stays]
    exact Spares.refl coherent
  · intro _ settled
    rw [same]
    exact settled

theorem Coherent.upholds_of_amends (coherent : exec.Coherent)
    {service : Service}
    (amends : ProcessTable.Amends service.exec.table exec.table)
    (estate? : service.exec.table.estate? = exec.table.estate?)
    (memory : service.exec.memory = exec.memory)
    (idle : service.exec.idle = exec.idle)
    (exitLink : service.exec.exitLink = exec.exitLink)
    (stays : service.ending caller = none) :
    Upholds caller exec service := by
  constructor
  · rw [stays]
    exact coherent.spares (coherent.table.amend amends) estate? memory idle
      exitLink
  · intro _ settled
    exact settled.amend amends

theorem amends_rebase (table : ProcessTable) (caller : ProcessId)
    {change : Process → Process} (rebases : ∀ process, ∃ heapBase,
      change process = { process with heapBase := heapBase }) :
    ProcessTable.Amends (table.updateProcess caller change) table := by
  apply ProcessTable.amends_updateProcess <;> intro process <;>
    obtain ⟨heapBase, same⟩ := rebases process <;> rw [same]

theorem estate?_rebase {table : ProcessTable} {change : Process → Process}
    (rebases : ∀ process, ∃ heapBase,
      change process = { process with heapBase := heapBase }) :
    (table.updateProcess caller change).estate? = table.estate? := by
  apply ProcessTable.estate?_updateProcess <;> intro process <;>
    obtain ⟨heapBase, same⟩ := rebases process <;> rw [same]
  rfl

theorem Coherent.spares_grant (coherent : exec.Coherent)
    (live : exec.table.process? caller ≠ none)
    {placement : Allocator.Placement}
    (fits : exec.memory.Fits placement) {table : ProcessTable}
    (wellFormed : table.WellFormed)
    (estate? : table.estate? = exec.table.estate?) :
    Spares none exec { exec with
      memory := (exec.memory.grant placement caller).memory
      table := table } := by
  have tenure? := ProcessTable.tenure?_congr estate?
  have held : exec.table.tenure? caller ≠ none :=
    fun missing => live (ProcessTable.tenure?_eq_none_iff.mp missing)
  refine ⟨?_, congrFun estate?, rfl, rfl⟩
  apply coherent.of_grant fits wellFormed rfl
  · rw [tenure?]
    exact held
  · intro id known
    rw [tenure?]
    exact known
  · intro id tenure known
    rw [tenure?] at known
    exact Or.inl known

/-- The freed region has the caller as its owner, and the one stack of the
caller starts elsewhere. -/
theorem Coherent.spares_vacate (coherent : exec.Coherent)
    {process : Process} (found : exec.table.process? caller = some process)
    {slot : Fin 128} {region : Region} (holds : exec.memory.Holds slot region)
    (owned : region.owner = caller)
    (notStack : region.base ≠ process.stackBase) {table : ProcessTable}
    (wellFormed : table.WellFormed)
    (estate? : table.estate? = exec.table.estate?) :
    Spares none exec { exec with
      memory := exec.memory.vacate slot
      table := table } := by
  refine ⟨?_, congrFun estate?, rfl, rfl⟩
  refine coherent.of_vacate slot wellFormed
    (ProcessTable.tenure?_congr estate?) rfl ?_
  intro id tenure freed held freedHolds stack
  obtain rfl : region = freed :=
    Option.some.inj (holds.symm.trans freedHolds)
  rw [← stack] at owned notStack
  obtain rfl : id = caller :=
    (ProcessTable.holder_of_tenure? held).symm.trans owned
  rw [ProcessTable.tenure?_of_process? found] at held
  rw [← Option.some.inj held] at notStack
  exact notStack rfl

theorem Coherent.upholds_heapAlloc (coherent : exec.Coherent)
    (live : exec.table.process? caller ≠ none) (size : Nat) :
    Upholds caller exec (exec.heapAlloc caller size) := by
  unfold heapAlloc
  cases allocated : exec.memory.allocate size caller with
  | error cause => exact coherent.upholds_of_same rfl rfl
  | ok grant =>
      obtain ⟨placement, fits, rfl⟩ := Allocator.allocate_eq_ok allocated
      have rebases := fun process : Process => process.adoptHeap_eq
        (exec.memory.grant placement caller).region.base
      have amends := amends_rebase exec.table caller rebases
      exact ⟨coherent.spares_grant live fits (coherent.table.amend amends)
        (estate?_rebase rebases), fun _ settled => settled.amend amends⟩

theorem heapRelease_cases (exec : Executive) (caller : ProcessId)
    (base : Nat) :
    (exec.heapRelease caller base).1 = exec ∨
    ∃ process slot region, exec.table.process? caller = some process ∧
      exec.memory.Holds slot region ∧ region.owner = caller ∧
      region.base ≠ process.stackBase ∧
      (exec.heapRelease caller base).1 = { exec with
        memory := exec.memory.vacate slot
        table := exec.table.updateProcess caller (·.dropHeap base) } := by
  unfold heapRelease
  cases found : exec.table.process? caller with
  | none => exact Or.inl rfl
  | some process =>
      dsimp only
      split
      · exact Or.inl rfl
      · rename_i notStack
        cases released : exec.memory.releaseAt base caller with
        | error cause => exact Or.inl rfl
        | ok memory =>
            obtain ⟨slot, region, holds, rfl, owned, rfl⟩ :=
              Allocator.releaseAt_eq_ok released
            exact Or.inr ⟨process, slot, region, rfl, holds, owned, notStack,
              rfl⟩

theorem Coherent.upholds_heapFree (coherent : exec.Coherent) (base : Nat) :
    Upholds caller exec (exec.heapFree caller base) := by
  have freed : (exec.heapFree caller base).exec =
      (exec.heapRelease caller base).1 := rfl
  have stays : (exec.heapFree caller base).ending caller = none := rfl
  rcases heapRelease_cases exec caller base with
    same | ⟨process, slot, region, found, holds, owned, notStack, same⟩
  · exact coherent.upholds_of_same (freed.trans same) stays
  · have rebases := fun process : Process => process.dropHeap_eq base
    have amends := amends_rebase exec.table caller rebases
    constructor
    · rw [stays, freed, same]
      exact coherent.spares_vacate found holds owned notStack
        (coherent.table.amend amends) (estate?_rebase rebases)
    · intro _ settled
      rw [freed, same]
      exact settled.amend amends

theorem Coherent.upholds_print (coherent : exec.Coherent)
    (memory : UserMemory) (address length : Nat) :
    Upholds caller exec (exec.print memory address length) := by
  unfold print
  cases memory.check address length with
  | error bad => exact coherent.upholds_of_same rfl rfl
  | ok _ =>
      dsimp only
      split
      · exact coherent.upholds_of_same rfl rfl
      · exact coherent.upholds_of_same rfl rfl

theorem Coherent.upholds_readInput (coherent : exec.Coherent)
    (memory : UserMemory) (address : Nat) :
    Upholds caller exec (exec.readInput caller memory address) := by
  unfold readInput
  cases exec.table.process? caller with
  | none => exact coherent.upholds_of_same rfl rfl
  | some process =>
      cases popped : process.input.pop? with
      | none =>
          dsimp only
          rw [popped]
          exact coherent.upholds_of_same rfl rfl
      | some taken =>
          obtain ⟨event, input⟩ := taken
          have amends : ProcessTable.Amends
              (exec.table.updateProcess caller fun process =>
                { process with input := input }) exec.table :=
            ProcessTable.amends_updateProcess (fun _ => rfl) (fun _ => rfl)
              (fun _ => rfl)
          have estate? :
              (exec.table.updateProcess caller fun process =>
                { process with input := input }).estate? =
                  exec.table.estate? :=
            ProcessTable.estate?_updateProcess (fun _ => rfl) (fun _ => rfl)
          dsimp only
          rw [popped]
          dsimp only
          split
          · exact coherent.upholds_of_amends amends estate? rfl rfl rfl rfl
          · exact coherent.upholds_of_amends amends estate? rfl rfl rfl rfl

theorem Coherent.upholds_drawText (coherent : exec.Coherent)
    (memory : UserMemory) (corner : Point) (address length scale : Nat)
    (colour : UInt32) :
    Upholds caller exec
      (exec.drawText memory corner address length scale colour) := by
  simp only [drawText]
  split
  · exact coherent.upholds_of_same rfl rfl
  · split
    · exact coherent.upholds_of_same rfl rfl
    · exact coherent.upholds_of_same rfl rfl

theorem Coherent.upholds_sleep (coherent : exec.Coherent)
    (now duration : Nat) :
    Upholds caller exec (exec.sleep caller now duration) := by
  unfold sleep
  split
  · exact coherent.upholds_of_same rfl rfl
  · dsimp only
    split
    · exact coherent.upholds_of_same rfl rfl
    · refine ⟨?_, fun wakeful => absurd ⟨0, rfl⟩ wakeful⟩
      have waits : ProcessState.blocked ≠ .stopped := by decide
      have wellFormed :=
        coherent.table.updateState caller waits (by decide)
      have restates :=
        ProcessTable.restates_updateState exec.table caller waits
      exact coherent.spares wellFormed restates.estate? rfl rfl rfl

theorem Coherent.upholds_stop (coherent : exec.Coherent)
    (live : exec.table.process? caller ≠ none) :
    Upholds caller exec (exec.stop caller) := by
  unfold stop
  cases ended : exec.terminate caller with
  | error cause =>
      have missing := terminate_eq_error ended
      rw [ProcessTable.process?, missing] at live
      exact absurd rfl live
  | ok outcome =>
      exact ⟨coherent.spares_terminate ended, fun _ settled =>
        settled_terminate settled ended⟩

theorem Coherent.upholds_perform (coherent : exec.Coherent)
    (live : exec.table.process? caller ≠ none) (readings : Readings)
    (context : Context) (call : Syscall) :
    Upholds caller exec (exec.perform readings caller context call) := by
  cases call with
  | heapAlloc => exact coherent.upholds_heapAlloc live _
  | heapFree => exact coherent.upholds_heapFree _
  | print => exact coherent.upholds_print _ _ _
  | readInput => exact coherent.upholds_readInput _ _
  | drawString => exact coherent.upholds_drawText _ _ _ _ _ _
  | sleep => exact coherent.upholds_sleep _ _
  | stop => exact coherent.upholds_stop live
  | clear | drawPixel | drawLine | fillRect | drawChar | screenSize
  | charSize | yield | uptime => exact coherent.upholds_of_same rfl rfl

theorem Coherent.upholds_serve (coherent : exec.Coherent)
    (live : exec.table.process? caller ≠ none) (readings : Readings)
    (context : Context) (number : UInt16) :
    Upholds caller exec (exec.serve readings caller context number) := by
  unfold serve
  cases Syscall.ofNumber? number with
  | none => exact coherent.upholds_of_same rfl rfl
  | some call =>
      have performed := coherent.upholds_perform live readings context call
      exact ⟨performed.spares, performed.settled⟩

end Executive

end Nucleus
