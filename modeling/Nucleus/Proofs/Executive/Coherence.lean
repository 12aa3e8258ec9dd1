import Nucleus.Executive.Basic
import Nucleus.Proofs.Memory.Handle
import Nucleus.Proofs.Process.Estate

/-!
Coherence of the executive.  The process table and the allocator are sound by
themselves, and agree about who owns what: every live region belongs to a live
process, and every live process holds the handle of its own stack.
-/

namespace Nucleus

/-- What ties a process to its stack. -/
structure Tenure where
  holder : ProcessId
  stack : Option RegionHandle
  base : Nat
  size : Nat

def Process.tenure (process : Process) : Tenure where
  holder := process.id
  stack := process.stack
  base := process.stackBase
  size := process.stackSize

/-- The stack is live, and it is the region that the process was given. -/
def Tenure.SecuredBy (tenure : Tenure) (memory : Allocator) : Prop :=
  ∃ handle, tenure.stack = some handle ∧
    memory.region? handle = some ⟨tenure.base, tenure.size, tenure.holder⟩

namespace ProcessTable

def tenure? (table : ProcessTable) (id : ProcessId) : Option Tenure :=
  (table.process? id).map Process.tenure

theorem tenure?_of_process? {table : ProcessTable} {id : ProcessId}
    {process : Process} (found : table.process? id = some process) :
    table.tenure? id = some process.tenure := by
  rw [tenure?, found]
  rfl

theorem tenure?_eq_none_iff {table : ProcessTable} {id : ProcessId} :
    table.tenure? id = none ↔ table.process? id = none :=
  Option.map_eq_none_iff

theorem holder_of_tenure? {table : ProcessTable} {id : ProcessId}
    {tenure : Tenure} (found : table.tenure? id = some tenure) :
    tenure.holder = id := by
  rw [tenure?, Option.map_eq_some_iff] at found
  obtain ⟨process, processFound, rfl⟩ := found
  exact id_of_process? processFound

theorem tenure?_eq_estate? (table : ProcessTable) (id : ProcessId) :
    table.tenure? id = (table.estate? id).map Process.tenure := by
  rw [tenure?, estate?, Option.map_map]
  rfl

theorem tenure?_congr {after before : ProcessTable}
    (same : after.estate? = before.estate?) :
    after.tenure? = before.tenure? := by
  funext id
  rw [tenure?_eq_estate?, tenure?_eq_estate?, same]

theorem process?_empty (id : ProcessId) : empty.process? id = none := by
  cases found : empty.process? id with
  | none => rfl
  | some process =>
      obtain ⟨slot, slotFound, _⟩ := process?_eq_some found
      have live := (live_of_slotOf? slotFound).1
      simp [empty] at live

end ProcessTable

namespace Executive

structure Coherent (exec : Executive) : Prop where
  table : exec.table.WellFormed
  memory : exec.memory.Layout
  owned : ∀ slot region, exec.memory.Holds slot region →
    exec.table.tenure? region.owner ≠ none
  secured : ∀ id tenure, exec.table.tenure? id = some tenure →
    tenure.SecuredBy exec.memory

section Coherent

variable {before after : Executive}

theorem Coherent.of_tenure? (coherent : before.Coherent)
    (table : after.table.WellFormed)
    (same : after.table.tenure? = before.table.tenure?)
    (memory : after.memory = before.memory) : after.Coherent := by
  constructor
  · exact table
  · rw [memory]
    exact coherent.memory
  · rw [memory, same]
    exact coherent.owned
  · rw [memory, same]
    exact coherent.secured

/-- A grant to a process that is live afterwards.  Whoever is not known from
before must come with a stack. -/
theorem Coherent.of_grant (coherent : before.Coherent)
    {placement : Allocator.Placement} {owner : ProcessId}
    (fits : before.memory.Fits placement) (table : after.table.WellFormed)
    (memory : after.memory = (before.memory.grant placement owner).memory)
    (ownerLive : after.table.tenure? owner ≠ none)
    (kept : ∀ id, before.table.tenure? id ≠ none →
      after.table.tenure? id ≠ none)
    (known : ∀ id tenure, after.table.tenure? id = some tenure →
      before.table.tenure? id = some tenure ∨
        tenure.SecuredBy after.memory) : after.Coherent := by
  constructor
  · exact table
  · rw [memory]
    exact coherent.memory.grant fits
  · intro slot region holds
    rw [memory, Allocator.holds_grant] at holds
    rcases holds with ⟨_, rfl⟩ | ⟨_, old⟩
    · exact ownerLive
    · exact kept region.owner (coherent.owned slot region old)
  · intro id tenure found
    rcases known id tenure found with old | secured
    · obtain ⟨handle, stack, named⟩ := coherent.secured id tenure old
      refine ⟨handle, stack, ?_⟩
      rw [memory]
      exact Allocator.region?_grant fits named
    · exact secured

/-- A release that spares every stack. -/
theorem Coherent.of_vacate (coherent : before.Coherent) (slot : Fin 128)
    (table : after.table.WellFormed)
    (same : after.table.tenure? = before.table.tenure?)
    (memory : after.memory = before.memory.vacate slot)
    (noStack : ∀ id tenure region, before.table.tenure? id = some tenure →
      before.memory.Holds slot region →
        ⟨tenure.base, tenure.size, tenure.holder⟩ ≠ region) :
    after.Coherent := by
  constructor
  · exact table
  · rw [memory]
    exact coherent.memory.vacate slot
  · intro other region holds
    rw [memory, Allocator.holds_vacate] at holds
    rw [same]
    exact coherent.owned other region holds.2
  · intro id tenure found
    rw [same] at found
    obtain ⟨handle, stack, named⟩ := coherent.secured id tenure found
    refine ⟨handle, stack, ?_⟩
    have away : handle.slot ≠ slot := by
      rintro rfl
      exact noStack id tenure _ found (Allocator.holds_of_region? named) rfl
    rw [memory, Allocator.region?_vacate away]
    exact named

/-- The end of a process together with everything it owns. -/
theorem Coherent.of_releaseOwnedBy (coherent : before.Coherent)
    {ended : ProcessId} (table : after.table.WellFormed)
    (memory : after.memory = (before.memory.releaseOwnedBy ended).1)
    (rest : ∀ id, after.table.tenure? id =
      if id = ended then none else before.table.tenure? id) :
    after.Coherent := by
  constructor
  · exact table
  · rw [memory]
    exact coherent.memory.releaseOwnedBy ended
  · intro slot region holds
    rw [memory, Allocator.holds_releaseOwnedBy] at holds
    rw [rest, if_neg holds.2]
    exact coherent.owned slot region holds.1
  · intro id tenure found
    rw [rest] at found
    split at found
    · cases found
    · rename_i foreign
      obtain ⟨handle, stack, named⟩ := coherent.secured id tenure found
      refine ⟨handle, stack, ?_⟩
      rw [memory]
      apply Allocator.region?_releaseOwnedBy named
      rw [ProcessTable.holder_of_tenure? found]
      exact foreign

end Coherent

/-- The executive once it has been told its configuration.  Without a usable
window it stays as it was. -/
def boot (config : Configuration) : Executive :=
  match initial.configure config with
  | .ok (exec, _) => exec
  | .error _ => initial

theorem boot_cases (config : Configuration) :
    boot config = initial ∨
    ∃ memory, Allocator.ofWindow config.memoryBase config.memorySize =
        .ok memory ∧
      boot config = { initial with
        memory := memory
        router := { initial.router with lines := config.lines }
        idle := config.idle
        exitLink := config.exitLink } := by
  unfold boot configure
  cases Allocator.ofWindow config.memoryBase config.memorySize with
  | error cause => exact Or.inl rfl
  | ok memory => exact Or.inr ⟨memory, rfl, rfl⟩

theorem boot_of_accepted {config : Configuration} {booted : Executive}
    {effects : List Effect}
    (accepted : initial.configure config = .ok (booted, effects)) :
    boot config = booted ∧ booted.idle = config.idle ∧
      booted.exitLink = config.exitLink := by
  unfold boot
  rw [accepted]
  unfold configure at accepted
  split at accepted
  · cases accepted
  · obtain ⟨rfl, _⟩ := Prod.mk.inj (Except.ok.inj accepted)
    exact ⟨rfl, rfl, rfl⟩

theorem table_boot (config : Configuration) :
    (boot config).table = ProcessTable.empty := by
  rcases boot_cases config with refused | ⟨memory, _, booted⟩
  · rw [refused]
    rfl
  · rw [booted]
    rfl

theorem layout_boot (config : Configuration) :
    (boot config).memory.Layout := by
  rcases boot_cases config with refused | ⟨memory, window, booted⟩
  · rw [refused]
    exact Allocator.Layout.empty
  · rw [booted]
    exact Allocator.Layout.ofWindow window

theorem not_holds_boot (config : Configuration) (slot : Fin 128)
    (region : Region) : ¬ (boot config).memory.Holds slot region := by
  rcases boot_cases config with refused | ⟨memory, window, booted⟩
  · rw [refused]
    exact Allocator.holds_empty slot region
  · obtain ⟨_, rfl⟩ := Allocator.ofWindow_eq_ok_iff.mp window
    rw [booted]
    exact Allocator.holds_empty slot region

theorem coherent_boot (config : Configuration) : (boot config).Coherent := by
  constructor
  · rw [table_boot]
    exact ProcessTable.wellFormed_empty
  · exact layout_boot config
  · intro slot region holds
    exact absurd holds (not_holds_boot config slot region)
  · intro id tenure found
    rw [table_boot, ProcessTable.tenure?, ProcessTable.process?_empty]
      at found
    cases found

end Executive

end Nucleus
