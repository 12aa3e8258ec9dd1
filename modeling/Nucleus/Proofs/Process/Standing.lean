import Nucleus.Process.Table
import Nucleus.Proofs.Tally

/-!
The standing of the process table: which slots are live, what their processes
are called, who runs and who has the focus.  A table is well formed when these
agree with its counters; it is settled when, moreover, the current process is
running.  Between the two lies a process that has just been blocked and has not
given the processor away yet.
-/

namespace Nucleus

namespace ProcessTable

structure WellFormed (table : ProcessTable) : Prop where
  vacant : ∀ slot : Fin 16, table.slots[slot].isLive = false →
    table.slots[slot] = Process.vacant
  used_le : table.used ≤ capacity
  below : ∀ slot : Fin 16, table.slots[slot].isLive = true →
    slot.val < table.used
  named : ∀ slot : Fin 16, table.slots[slot].isLive = true →
    table.slots[slot].id ≠ ProcessId.kernel
  distinct : ∀ slot other : Fin 16, table.slots[slot].isLive = true →
    table.slots[other].isLive = true →
      table.slots[slot].id = table.slots[other].id → slot = other
  focus_unique : ∀ slot other : Fin 16, table.slots[slot].focused = true →
    table.slots[other].focused = true → slot = other
  cursor_below : ∀ slot, table.cursor = some slot → slot.val < table.used
  counted : table.live = table.liveSlots.length
  current_live : ∀ slot, table.current = some slot →
    table.slots[slot].isLive = true
  running_current : ∀ slot : Fin 16, table.slots[slot].isRunning = true →
    table.current = some slot

def Settled (table : ProcessTable) : Prop :=
  ∀ slot, table.current = some slot → table.slots[slot].isRunning = true

theorem wellFormed_empty : empty.WellFormed := by
  have content : ∀ slot : Fin 16, empty.slots[slot] = Process.vacant := by
    intro slot
    simp [empty]
  constructor
  · intro slot _
    exact content slot
  · exact Nat.zero_le _
  · intro slot live
    rw [content slot] at live
    cases live
  · intro slot live
    rw [content slot] at live
    cases live
  · intro slot other live
    rw [content slot] at live
    cases live
  · intro slot other focused
    rw [content slot] at focused
    cases focused
  · intro slot pointed
    cases pointed
  · have none : empty.liveSlots = [] := by
      rw [List.eq_nil_iff_forall_not_mem]
      intro slot member
      rw [liveSlots, Slots.mem_all, content slot] at member
      cases member
    rw [none]
    rfl
  · intro slot pointed
    cases pointed
  · intro slot running
    rw [content slot] at running
    cases running

theorem settled_empty : empty.Settled := by
  intro slot pointed
  cases pointed

theorem WellFormed.focus_live {table : ProcessTable}
    (wellFormed : table.WellFormed) {slot : Fin 16}
    (focused : table.slots[slot].focused = true) :
    table.slots[slot].isLive = true := by
  cases live : table.slots[slot].isLive with
  | true => rfl
  | false =>
      rw [wellFormed.vacant slot live] at focused
      cases focused

theorem ne_of_live {table : ProcessTable} {slot other : Fin 16}
    (stopped : table.slots[slot].isLive = false)
    (live : table.slots[other].isLive = true) : slot ≠ other := by
  rintro rfl
  rw [live] at stopped
  cases stopped

section Lookup

variable {table : ProcessTable} {id : ProcessId} {slot : Fin 16}

theorem live_of_slotOf? (found : table.slotOf? id = some slot) :
    table.slots[slot].isLive = true ∧ table.slots[slot].id = id := by
  unfold slotOf? at found
  split at found
  · cases found
  · have accepted := Slots.accepts_of_first? found
    simpa only [Bool.and_eq_true, beq_iff_eq] using accepted

theorem WellFormed.slotOf?_of_live (wellFormed : table.WellFormed)
    (live : table.slots[slot].isLive = true) :
    table.slotOf? table.slots[slot].id = some slot := by
  have named := wellFormed.named slot live
  have notKernel : table.slots[slot].id.isKernel = false := by
    rw [ProcessId.isKernel, beq_eq_false_iff_ne]
    exact fun zero => named (congrArg ProcessId.mk zero)
  cases found : table.slotOf? table.slots[slot].id with
  | some other =>
      obtain ⟨otherLive, same⟩ := live_of_slotOf? found
      rw [wellFormed.distinct other slot otherLive live same]
  | none =>
      rw [slotOf?, notKernel, if_neg Bool.false_ne_true,
        Slots.first?_eq_none_iff] at found
      have refused := found slot
      rw [live, beq_self_eq_true] at refused
      cases refused

theorem slotOf?_congr {other : ProcessTable}
    (sameLive : ∀ slot : Fin 16,
      table.slots[slot].isLive = other.slots[slot].isLive)
    (sameId : ∀ slot : Fin 16, table.slots[slot].id = other.slots[slot].id) :
    table.slotOf? id = other.slotOf? id := by
  unfold slotOf? Slots.first?
  simp only [sameLive, sameId]

theorem map_process?_congr {α : Type} {view : Process → α}
    {other : ProcessTable}
    (sameLive : ∀ slot : Fin 16,
      table.slots[slot].isLive = other.slots[slot].isLive)
    (sameId : ∀ slot : Fin 16, table.slots[slot].id = other.slots[slot].id)
    (sameView : ∀ slot : Fin 16,
      view table.slots[slot] = view other.slots[slot]) (id : ProcessId) :
    (table.process? id).map view = (other.process? id).map view := by
  have sameSlot : table.slotOf? id = other.slotOf? id :=
    slotOf?_congr sameLive sameId
  simp only [process?, sameSlot, Option.map_map]
  cases other.slotOf? id with
  | none => rfl
  | some slot => exact congrArg some (sameView slot)

theorem process?_eq_some {process : Process}
    (found : table.process? id = some process) :
    ∃ slot, table.slotOf? id = some slot ∧ table.slots[slot] = process := by
  rw [process?, Option.map_eq_some_iff] at found
  exact found

theorem process?_of_slotOf? (found : table.slotOf? id = some slot) :
    table.process? id = some table.slots[slot] := by
  rw [process?, found]
  rfl

theorem WellFormed.process?_of_live (wellFormed : table.WellFormed)
    (live : table.slots[slot].isLive = true) :
    table.process? table.slots[slot].id = some table.slots[slot] :=
  process?_of_slotOf? (wellFormed.slotOf?_of_live live)

theorem id_of_process? {process : Process}
    (found : table.process? id = some process) : process.id = id := by
  obtain ⟨slot, slotFound, rfl⟩ := process?_eq_some found
  exact (live_of_slotOf? slotFound).2

end Lookup

structure Keeps (after before : ProcessTable) : Prop where
  used : after.used = before.used
  live : after.live = before.live
  id : ∀ slot : Fin 16, after.slots[slot].id = before.slots[slot].id
  isLive : ∀ slot : Fin 16,
    after.slots[slot].isLive = before.slots[slot].isLive
  untouched : ∀ slot : Fin 16, before.slots[slot].isLive = false →
    after.slots[slot] = before.slots[slot]

/-- Among the same processes only focus, cursor and processor can go wrong. -/
theorem WellFormed.keep {after before : ProcessTable}
    (wellFormed : before.WellFormed) (keeps : Keeps after before)
    (focus_unique : ∀ slot other : Fin 16,
      after.slots[slot].focused = true →
        after.slots[other].focused = true → slot = other)
    (cursor_below : ∀ slot, after.cursor = some slot →
      slot.val < before.used)
    (current_live : ∀ slot, after.current = some slot →
      before.slots[slot].isLive = true)
    (running_current : ∀ slot : Fin 16,
      after.slots[slot].isRunning = true → after.current = some slot) :
    after.WellFormed := by
  constructor
  · intro slot stopped
    rw [keeps.isLive] at stopped
    rw [keeps.untouched slot stopped]
    exact wellFormed.vacant slot stopped
  · rw [keeps.used]
    exact wellFormed.used_le
  · intro slot live
    rw [keeps.isLive] at live
    rw [keeps.used]
    exact wellFormed.below slot live
  · intro slot live
    rw [keeps.isLive] at live
    rw [keeps.id]
    exact wellFormed.named slot live
  · intro slot other live otherLive same
    rw [keeps.isLive] at live otherLive
    rw [keeps.id, keeps.id] at same
    exact wellFormed.distinct slot other live otherLive same
  · exact focus_unique
  · rw [keeps.used]
    exact cursor_below
  · rw [keeps.live, wellFormed.counted, liveSlots, liveSlots,
      Slots.all_congr keeps.isLive]
  · intro slot pointed
    rw [keeps.isLive]
    exact current_live slot pointed
  · exact running_current

structure Amends (after before : ProcessTable) : Prop where
  current : after.current = before.current
  cursor : after.cursor = before.cursor
  used : after.used = before.used
  live : after.live = before.live
  id : ∀ slot : Fin 16, after.slots[slot].id = before.slots[slot].id
  state : ∀ slot : Fin 16, after.slots[slot].state = before.slots[slot].state
  focused : ∀ slot : Fin 16,
    after.slots[slot].focused = before.slots[slot].focused
  untouched : ∀ slot : Fin 16, before.slots[slot].isLive = false →
    after.slots[slot] = before.slots[slot]

section Amends

variable {after before : ProcessTable}

theorem Amends.refl (table : ProcessTable) : Amends table table :=
  ⟨rfl, rfl, rfl, rfl, fun _ => rfl, fun _ => rfl, fun _ => rfl,
    fun _ _ => rfl⟩

theorem Amends.isLive (amends : Amends after before) (slot : Fin 16) :
    after.slots[slot].isLive = before.slots[slot].isLive := by
  rw [Process.isLive, Process.isLive, amends.state slot]

theorem Amends.isRunning (amends : Amends after before) (slot : Fin 16) :
    after.slots[slot].isRunning = before.slots[slot].isRunning := by
  rw [Process.isRunning, Process.isRunning, amends.state slot]

theorem Amends.trans {middle : ProcessTable} (later : Amends after middle)
    (earlier : Amends middle before) : Amends after before where
  current := later.current.trans earlier.current
  cursor := later.cursor.trans earlier.cursor
  used := later.used.trans earlier.used
  live := later.live.trans earlier.live
  id slot := (later.id slot).trans (earlier.id slot)
  state slot := (later.state slot).trans (earlier.state slot)
  focused slot := (later.focused slot).trans (earlier.focused slot)
  untouched slot dead := by
    have stillDead := (earlier.isLive slot).trans dead
    rw [later.untouched slot stillDead, earlier.untouched slot dead]

theorem Amends.keeps (amends : Amends after before) : Keeps after before :=
  ⟨amends.used, amends.live, amends.id, amends.isLive, amends.untouched⟩

theorem WellFormed.amend (wellFormed : before.WellFormed)
    (amends : Amends after before) : after.WellFormed := by
  apply wellFormed.keep amends.keeps
  · intro slot other focused otherFocused
    rw [amends.focused] at focused otherFocused
    exact wellFormed.focus_unique slot other focused otherFocused
  · rw [amends.cursor]
    exact wellFormed.cursor_below
  · rw [amends.current]
    exact wellFormed.current_live
  · intro slot running
    rw [amends.isRunning] at running
    rw [amends.current]
    exact wellFormed.running_current slot running

theorem Settled.amend (settled : before.Settled)
    (amends : Amends after before) : after.Settled := by
  intro slot pointed
  rw [amends.current] at pointed
  rw [amends.isRunning]
  exact settled slot pointed

end Amends

end ProcessTable

end Nucleus
