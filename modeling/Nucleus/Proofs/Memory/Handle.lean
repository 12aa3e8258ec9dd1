import Nucleus.Proofs.Memory.Outcome

/-!
Handles.  As long as its region is live, a handle keeps naming it, whatever is
handed out or given back elsewhere.
-/

namespace Nucleus

namespace Allocator

variable {memory : Allocator} {handle : RegionHandle} {region : Region}

theorem region?_eq_some_iff :
    memory.region? handle = some region ↔
      memory.slots[handle.slot].generation = handle.generation ∧
        memory.Holds handle.slot region := by
  simp only [region?, Holds]
  split
  · rename_i current
    exact (and_iff_right current).symm
  · rename_i spent
    constructor
    · intro named
      cases named
    · exact fun named => absurd named.1 spent

theorem holds_of_region? (named : memory.region? handle = some region) :
    memory.Holds handle.slot region :=
  (region?_eq_some_iff.mp named).2

theorem region?_congr {other : Allocator}
    (same : other.slots[handle.slot] = memory.slots[handle.slot]) :
    other.region? handle = memory.region? handle := by
  simp only [region?]
  rw [same]

theorem region?_granted (memory : Allocator) (placement : Placement)
    (owner : ProcessId) :
    (memory.grant placement owner).memory.region?
        (memory.grant placement owner).handle =
      some (memory.grant placement owner).region := by
  rw [region?_eq_some_iff]
  refine ⟨?_, holds_granted memory placement owner⟩
  simp only [grant, occupy, Slots.get_write_self]

theorem region?_grant {placement : Placement} {owner : ProcessId}
    (fits : memory.Fits placement)
    (named : memory.region? handle = some region) :
    (memory.grant placement owner).memory.region? handle = some region := by
  have away := fits.ne_of_holds (holds_of_region? named)
  rw [← named]
  apply region?_congr
  simp only [grant, occupy]
  exact Slots.get_write_of_ne _ _ away

theorem region?_vacate {slot : Fin 128} (away : handle.slot ≠ slot) :
    (memory.vacate slot).region? handle = memory.region? handle :=
  region?_congr (slots_vacate_of_ne away)

theorem region?_releaseOwnedBy {owner : ProcessId}
    (named : memory.region? handle = some region)
    (foreign : region.owner ≠ owner) :
    (memory.releaseOwnedBy owner).1.region? handle = some region := by
  rw [← named]
  exact region?_congr
    (slots_releaseOwnedBy_of_not_owned (holds_of_region? named) foreign)

end Allocator

end Nucleus
