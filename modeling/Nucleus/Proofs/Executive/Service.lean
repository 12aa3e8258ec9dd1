import Nucleus.Proofs.Executive.Calls

/-!
What a call can come to.  A call leaves everything as it was, or it changes one
of the caller's own possessions: a region, the input it has not read, its place
in the deadline queue, or its life.
-/

namespace Nucleus

namespace Executive

variable {exec after : Executive} {id : ProcessId}

/-- Everything that a call can make of the executive, with the way it ends. -/
inductive Served (exec : Executive) (caller : ProcessId)
    (after : Executive) (flow : Except FatalKind Flow) : Prop
  | unmoved (same : after = exec)
  | granted (placement : Allocator.Placement)
      (fits : exec.memory.Fits placement)
      (resumes : ∃ value, flow = .ok (.resume value))
      (same : after = { exec with
        memory := (exec.memory.grant placement caller).memory
        table := exec.table.updateProcess caller
          (·.adoptHeap (exec.memory.grant placement caller).region.base) })
  | freed (slot : Fin 128) (region : Region) (base : Nat)
      (holds : exec.memory.Holds slot region) (owned : region.owner = caller)
      (resumes : ∃ value, flow = .ok (.resume value))
      (same : after = { exec with
        memory := exec.memory.vacate slot
        table := exec.table.updateProcess caller (·.dropHeap base) })
  | read (input : KeyRing)
      (same : after = { exec with
        table := exec.table.updateProcess caller fun process =>
          { process with input := input } })
  | slept (queue : DeadlineQueue) (deadline : Nat)
      (inserted : exec.sleepers.insert? caller deadline = some queue)
      (blocks : flow = .ok (.block 0))
      (same : after = { exec with
        sleepers := queue
        table := exec.table.updateProcess caller fun process =>
          { process with state := .blocked } })
  | stopped (reports : List Effect)
      (ended : exec.terminate caller = .ok (after, reports))
      (exits : flow = .ok .exit)

theorem served_heapAlloc (exec : Executive) (caller : ProcessId)
    (size : Nat) :
    exec.Served caller (exec.heapAlloc caller size).exec
      (exec.heapAlloc caller size).flow := by
  unfold heapAlloc
  cases allocated : exec.memory.allocate size caller with
  | error cause => exact .unmoved rfl
  | ok grant =>
      obtain ⟨placement, fits, rfl⟩ := Allocator.allocate_eq_ok allocated
      exact .granted placement fits ⟨_, rfl⟩ rfl

theorem served_heapFree (exec : Executive) (caller : ProcessId)
    (base : Nat) :
    exec.Served caller (exec.heapFree caller base).exec
      (exec.heapFree caller base).flow := by
  rcases heapRelease_cases exec caller base with
    same | ⟨_, slot, region, _, holds, owned, _, same⟩
  · exact .unmoved same
  · exact .freed slot region base holds owned ⟨_, rfl⟩ same

theorem served_print (exec : Executive) (caller : ProcessId)
    (memory : UserMemory) (address length : Nat) :
    exec.Served caller (exec.print memory address length).exec
      (exec.print memory address length).flow := by
  unfold print
  split
  · exact .unmoved rfl
  · dsimp only
    split <;> exact .unmoved rfl

theorem served_readInput (exec : Executive) (caller : ProcessId)
    (memory : UserMemory) (address : Nat) :
    exec.Served caller (exec.readInput caller memory address).exec
      (exec.readInput caller memory address).flow := by
  unfold readInput
  split
  · exact .unmoved rfl
  · split
    · exact .unmoved rfl
    · rename_i input _
      dsimp only
      split <;> exact .read input rfl

theorem served_drawText (exec : Executive) (caller : ProcessId)
    (memory : UserMemory) (corner : Point) (address length scale : Nat)
    (colour : UInt32) :
    exec.Served caller
      (exec.drawText memory corner address length scale colour).exec
      (exec.drawText memory corner address length scale colour).flow := by
  unfold drawText
  dsimp only
  split
  · exact .unmoved rfl
  · split <;> exact .unmoved rfl

theorem served_sleep (exec : Executive) (caller : ProcessId)
    (now duration : Nat) :
    exec.Served caller (exec.sleep caller now duration).exec
      (exec.sleep caller now duration).flow := by
  unfold sleep
  split
  · exact .unmoved rfl
  · dsimp only
    split
    · exact .unmoved rfl
    · rename_i queue inserted
      exact .slept queue _ inserted rfl rfl

theorem served_stop (exec : Executive) (caller : ProcessId) :
    exec.Served caller (exec.stop caller).exec (exec.stop caller).flow := by
  unfold stop
  split
  · rename_i after reports ended
    exact .stopped reports ended rfl
  · exact .unmoved rfl

theorem served_perform (exec : Executive) (readings : Readings)
    (caller : ProcessId) (context : Context) (call : Syscall) :
    exec.Served caller (exec.perform readings caller context call).exec
      (exec.perform readings caller context call).flow := by
  cases call with
  | heapAlloc => exact served_heapAlloc exec caller _
  | heapFree => exact served_heapFree exec caller _
  | print => exact served_print exec caller _ _ _
  | readInput => exact served_readInput exec caller _ _
  | drawString => exact served_drawText exec caller _ _ _ _ _ _
  | sleep => exact served_sleep exec caller _ _
  | stop => exact served_stop exec caller
  | clear | drawPixel | drawLine | fillRect | drawChar | screenSize
  | charSize | yield | uptime => exact .unmoved rfl

theorem served_serve (exec : Executive) (readings : Readings)
    (caller : ProcessId) (context : Context) (number : UInt16) :
    exec.Served caller (exec.serve readings caller context number).exec
      (exec.serve readings caller context number).flow := by
  unfold serve
  cases Syscall.ofNumber? number with
  | none => exact .unmoved rfl
  | some call => exact served_perform exec readings caller context call

theorem current_updateProcess (table : ProcessTable) (id : ProcessId)
    (change : Process → Process) :
    (table.updateProcess id change).current = table.current := by
  unfold ProcessTable.updateProcess
  split <;> rfl

/-- A call leaves the processor where it was, unless it ends the caller. -/
theorem Served.current_or_ended {flow : Except FatalKind Flow}
    (served : exec.Served id after flow) :
    after.table.current = exec.table.current ∨
      ∃ reports, exec.terminate id = .ok (after, reports) := by
  cases served with
  | unmoved same => exact .inl (by rw [same])
  | granted _ _ _ same | freed _ _ _ _ _ _ same | read _ same
  | slept _ _ _ _ same =>
      rw [same]
      exact .inl (current_updateProcess _ _ _)
  | stopped reports ended _ => exact .inr ⟨reports, ended⟩

end Executive

end Nucleus
