import Nucleus.Proofs.Executive.Interrupts
import Nucleus.Proofs.Executive.Judgement

/-!
Calls that return at once.  Such a call leaves the processor to its caller, and
the trap ends with the context that it came with, the value in its result
register; the devices are told what the call tells them, and nothing else.
-/

namespace Nucleus

namespace Executive

variable {exec after : Executive} {frame : Frame} {readings : Readings}
  {process : Process} {call : Syscall} {value : UInt64}

/-- What a process gets from the kernel for a call, before it is settled. -/
def service (exec : Executive) (frame : Frame) (readings : Readings)
    (process : Process) (call : Syscall) : Service :=
  (exec.capture frame.context).perform readings process.id frame.context call

theorem Served.amends {caller : ProcessId}
    (served : exec.Served caller after (.ok (.resume value))) :
    ProcessTable.Amends after.table exec.table := by
  cases served with
  | unmoved same =>
      rw [same]
      exact ProcessTable.Amends.refl exec.table
  | granted placement fits resumes same =>
      rw [same]
      exact amends_rebase _ _ fun process => process.adoptHeap_eq _
  | freed slot region base holds owned resumes same =>
      rw [same]
      exact amends_rebase _ _ fun process => process.dropHeap_eq _
  | read input same =>
      rw [same]
      exact ProcessTable.amends_updateProcess (fun _ => rfl) (fun _ => rfl)
        (fun _ => rfl)
  | slept _ _ _ blocks => cases blocks
  | stopped _ _ exits => cases exits

structure Returns (exec : Executive) (frame : Frame) (readings : Readings)
    (process : Process) (call : Syscall) (value : UInt64) : Prop where
  fatal : (exec.handleSynchronous frame readings).fatal = none
  frame_eq : (exec.handleSynchronous frame readings).frame =
    frame.resume (frame.context.setResult value)
  commands_eq : commands (exec.handleSynchronous frame readings).effects =
    commands (exec.service frame readings process call).effects
  exec_eq : (exec.handleSynchronous frame readings).exec =
    (exec.service frame readings process call).exec.setResult process.id value

theorem Calls.currentId?_eq (calls : exec.Calls frame process call) :
    exec.table.currentId? = some process.id := by
  rw [ProcessTable.currentId?, calls.current]
  rfl

/-- The context that the trap came with has been kept for the caller. -/
theorem Coherent.traps_service (coherent : exec.Coherent)
    (calls : exec.Calls frame process call)
    (resumes : (exec.service frame readings process call).flow =
      .ok (.resume value)) :
    Traps (some process.id) frame.context none exec
      (exec.service frame readings process call).exec := by
  have running := calls.currentId?_eq
  have captured := coherent.traps_capture frame.context
  rw [running] at captured
  have upholds := captured.coherent.upholds_perform
    (coherent.live_capture running frame.context) readings frame.context call
  refine captured.trans_spares (fun id ends => ?_) upholds.spares
  rw [← service, Service.ending, resumes] at ends
  cases ends

theorem Coherent.currentId?_service (coherent : exec.Coherent)
    (calls : exec.Calls frame process call)
    (resumes : (exec.service frame readings process call).flow =
      .ok (.resume value)) :
    (exec.service frame readings process call).exec.table.currentId? =
      some process.id := by
  have served := served_perform (exec.capture frame.context) readings
    process.id frame.context call
  rw [← service, resumes] at served
  have amends := served.amends.trans (amends_capture coherent frame.context)
  rw [amends.unswitched.currentId?, calls.currentId?_eq]

theorem Coherent.returns (coherent : exec.Coherent)
    (calls : exec.Calls frame process call)
    (resumes : (exec.service frame readings process call).flow =
      .ok (.resume value)) :
    exec.Returns frame readings process call value := by
  have answered := (coherent.traps_service calls resumes).setResult value
  have running :=
    ((rewrites_setResult (exec.service frame readings process call).exec
      process.id value).amends.unswitched.currentId?).trans
        (coherent.currentId?_service calls resumes)
  have next : ((exec.service frame readings process call).exec.setResult
      process.id value).nextContext = frame.context.setResult value := by
    obtain ⟨caller, found, next⟩ :=
      answered.coherent.nextContext_of_running running
    obtain ⟨_, _, kept⟩ := answered.own process.id caller.estate rfl
      (by rw [ProcessTable.estate?, found]; rfl)
    rw [next]
    exact congrArg Process.context kept
  have trapped := calls.handleSynchronous_eq readings
  rw [← service] at trapped
  dsimp only at trapped
  rw [resumes] at trapped
  dsimp only [settle] at trapped
  refine ⟨?_, ?_, ?_, ?_⟩ <;> rw [trapped]
  · rw [next]
  · rw [List.append_nil]
    rfl

end Executive

end Nucleus
