namespace Nucleus

namespace Slots

variable {α : Type} {n : Nat}

instance atSlot : GetElem (Vector α n) (Fin n) α fun _ _ => True where
  getElem slots slot _ := slots.get slot

@[inline] def write (slots : Vector α n) (slot : Fin n) (content : α) :
    Vector α n :=
  slots.set slot content

/-- The first slot whose content satisfies a condition. -/
@[inline] def first? (slots : Vector α n) (accepts : α → Bool) :
    Option (Fin n) :=
  (List.finRange n).find? fun slot => accepts slots[slot]

@[inline] def all (slots : Vector α n) (accepts : α → Bool) : List (Fin n) :=
  (List.finRange n).filter fun slot => accepts slots[slot]

theorem accepts_of_first? {slots : Vector α n} {accepts : α → Bool}
    {slot : Fin n} (found : first? slots accepts = some slot) :
    accepts slots[slot] = true :=
  List.find?_some (p := fun slot => accepts slots[slot]) found

theorem not_accepts_of_lt {slots : Vector α n} {accepts : α → Bool}
    {slot other : Fin n} (found : first? slots accepts = some slot)
    (before : other < slot) : accepts slots[other] = false := by
  obtain ⟨_, index, inside, same, skipped⟩ :=
    List.find?_eq_some_iff_getElem.mp found
  rw [List.getElem_finRange] at same
  have passed := skipped other.val (by
    rw [← same] at before
    exact before)
  rw [List.getElem_finRange, Bool.not_eq_true'] at passed
  exact passed

theorem first?_eq_none_iff {slots : Vector α n} {accepts : α → Bool} :
    first? slots accepts = none ↔
      ∀ slot : Fin n, accepts slots[slot] = false := by
  simp [first?, List.find?_eq_none]

theorem first?_of_accepts_zero {slots : Vector α (n + 1)}
    {accepts : α → Bool}
    (accepted : accepts slots[(0 : Fin (n + 1))] = true) :
    first? slots accepts = some 0 := by
  rw [first?, List.finRange_succ]
  exact List.find?_cons_of_pos accepted

@[simp] theorem mem_all {slots : Vector α n} {accepts : α → Bool}
    {slot : Fin n} :
    slot ∈ all slots accepts ↔ accepts slots[slot] = true := by
  simp [all]

theorem get_write (slots : Vector α n) (written slot : Fin n) (content : α) :
    (write slots written content)[slot] =
      if slot = written then content else slots[slot] := by
  by_cases same : slot = written
  · subst same
    rw [if_pos rfl]
    exact Vector.getElem_set_self slot.isLt
  · have apart : written.val ≠ slot.val :=
      fun equal => same (Fin.ext equal.symm)
    rw [if_neg same]
    exact Vector.getElem_set_ne written.isLt slot.isLt apart

@[simp] theorem get_write_self (slots : Vector α n) (slot : Fin n)
    (content : α) : (write slots slot content)[slot] = content := by
  rw [get_write, if_pos rfl]

theorem get_write_of_ne (slots : Vector α n) {written slot : Fin n}
    (content : α) (apart : slot ≠ written) :
    (write slots written content)[slot] = slots[slot] := by
  rw [get_write, if_neg apart]

theorem write_get (slots : Vector α n) (slot : Fin n) :
    write slots slot slots[slot] = slots :=
  Vector.set_getElem_self slot.isLt

@[simp] theorem get_replicate (content : α) (slot : Fin n) :
    (Vector.replicate n content)[slot] = content :=
  Vector.getElem_replicate slot.isLt

@[simp] theorem get_map {β : Type} (change : α → β) (slots : Vector α n)
    (slot : Fin n) : (slots.map change)[slot] = change slots[slot] :=
  Vector.getElem_map change slot.isLt

end Slots

end Nucleus
