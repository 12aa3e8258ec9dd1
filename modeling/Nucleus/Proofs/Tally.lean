import Mathlib.Algebra.BigOperators.Fin
import Nucleus.Slots

namespace Nucleus

namespace Slots

variable {α : Type} {n : Nat}

theorem sum_exchange (before after : Fin n → Nat) {slot : Fin n}
    (same : ∀ other, other ≠ slot → after other = before other) :
    (∑ other, after other) + before slot =
      (∑ other, before other) + after slot := by
  rw [← Finset.sum_erase_add _ after (Finset.mem_univ slot),
    ← Finset.sum_erase_add _ before (Finset.mem_univ slot)]
  have rest : ∑ other ∈ Finset.univ.erase slot, after other =
      ∑ other ∈ Finset.univ.erase slot, before other :=
    Finset.sum_congr rfl fun other member =>
      same other (Finset.ne_of_mem_erase member)
  omega

theorem length_all (slots : Vector α n) (accepts : α → Bool) :
    (all slots accepts).length =
      ∑ slot : Fin n, (accepts slots[slot]).toNat := by
  rw [Fin.sum_univ_def, all, ← List.countP_eq_length_filter]
  induction List.finRange n with
  | nil => rfl
  | cons slot rest ih =>
      rw [List.countP_cons, List.map_cons, List.sum_cons, ih, Nat.add_comm]
      cases accepts slots[slot] <;> rfl

theorem length_all_set (slots : Vector α n) (accepts : α → Bool)
    (slot : Fin n) (content : α) :
    (all (write slots slot content) accepts).length +
        (accepts slots[slot]).toNat =
      (all slots accepts).length + (accepts content).toNat := by
  rw [length_all, length_all]
  have exchanged := sum_exchange
    (fun other : Fin n => (accepts slots[other]).toNat)
    (fun other : Fin n => (accepts (write slots slot content)[other]).toNat)
    fun other away => by rw [get_write_of_ne _ _ away]
  simpa only [get_write_self] using exchanged

theorem all_congr {slots other : Vector α n} {accepts : α → Bool}
    (same : ∀ slot : Fin n, accepts slots[slot] = accepts other[slot]) :
    all slots accepts = all other accepts :=
  List.filter_congr fun slot _ => same slot

end Slots

end Nucleus
