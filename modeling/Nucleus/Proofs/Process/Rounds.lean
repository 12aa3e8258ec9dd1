import Nucleus.Proofs.Process.Sleeping

/-!
Round robin.  The slots form a circle, and every decision goes on from the slot
selected last to the first ready one.  So the way from there to a process that
waits gets shorter with every selection, whatever happens to other processes.
-/

namespace Nucleus

namespace ProcessTable

variable {table : ProcessTable} {id : ProcessId} {place slot : Fin 16}

/-- How many slots lie between two, going upwards in the circle.  A slot comes
last after itself. -/
def gap (last slot : Fin 16) : Nat :=
  (slot.val + 15 - last.val) % 16

/-- Before the first selection it is as if the last slot had been selected. -/
def lastSelected (table : ProcessTable) : Fin 16 :=
  table.cursor.getD (Fin.last 15)

theorem gap_lt (last slot : Fin 16) : gap last slot < 16 :=
  Nat.mod_lt _ (by decide)

theorem gap_injective {last slot other : Fin 16}
    (same : gap last slot = gap last other) : slot = other := by
  unfold gap at same
  omega

theorem gap_add {last slot other : Fin 16}
    (before : gap last slot < gap last other) :
    gap slot other + gap last slot + 1 = gap last other := by
  unfold gap at before ⊢
  omega

theorem scanStart_le (wellFormed : table.WellFormed) :
    table.scanStart ≤ table.used := by
  unfold scanStart
  split
  · rename_i slot pointed
    exact wellFormed.cursor_below slot pointed
  · exact Nat.zero_le _

theorem lastSelected_eq (table : ProcessTable) :
    table.lastSelected.val = (table.scanStart + 15) % 16 := by
  unfold lastSelected scanStart
  cases table.cursor with
  | none => rfl
  | some slot =>
      simp only [Option.getD_some]
      omega

theorem val_scanned (wellFormed : table.WellFormed) {offset : Nat}
    (inside : offset < table.used) :
    (table.scanned offset).val =
      if table.scanStart + offset < table.used then table.scanStart + offset
      else table.scanStart + offset - table.used := by
  have start := scanStart_le wellFormed
  have small : table.used ≤ 16 := wellFormed.used_le
  have bounded := Nat.mod_lt (table.scanStart + offset)
    (Nat.zero_lt_of_lt inside)
  rw [scanned, Fin.ofNat]
  dsimp only
  rw [Nat.mod_eq_of_lt (by omega)]
  split
  · rename_i below
    exact Nat.mod_eq_of_lt below
  · rename_i above
    rw [Nat.mod_eq_sub_mod (Nat.not_lt.mp above),
      Nat.mod_eq_of_lt (by omega)]

theorem gap_scanned_le (wellFormed : table.WellFormed) {first second : Nat}
    (order : first ≤ second) (inside : second < table.used) :
    gap table.lastSelected (table.scanned first) ≤
      gap table.lastSelected (table.scanned second) := by
  have start := scanStart_le wellFormed
  have small : table.used ≤ 16 := wellFormed.used_le
  unfold gap
  rw [lastSelected_eq, val_scanned wellFormed inside,
    val_scanned wellFormed (Nat.lt_of_le_of_lt order inside)]
  split <;> split <;> omega

theorem exists_scanned (wellFormed : table.WellFormed)
    (used : slot.val < table.used) :
    ∃ offset, offset < table.used ∧ table.scanned offset = slot := by
  have start := scanStart_le wellFormed
  by_cases ahead : table.scanStart ≤ slot.val
  · refine ⟨slot.val - table.scanStart, by omega, Fin.ext ?_⟩
    rw [val_scanned wellFormed (by omega), if_pos (by omega)]
    omega
  · refine ⟨slot.val + table.used - table.scanStart, by omega, Fin.ext ?_⟩
    rw [val_scanned wellFormed (by omega), if_neg (by omega)]
    omega

theorem used_of_ready (wellFormed : table.WellFormed)
    (ready : table.slots[slot].state = .ready) : slot.val < table.used := by
  apply wellFormed.below
  rw [Process.isLive, ready]
  rfl

theorem gap_nextReady?_le (wellFormed : table.WellFormed)
    (found : table.nextReady? = some slot) {other : Fin 16}
    (ready : table.slots[other].state = .ready) :
    gap table.lastSelected slot ≤ gap table.lastSelected other := by
  obtain ⟨_, index, inside, rfl, skipped⟩ :=
    List.find?_eq_some_iff_getElem.mp found
  obtain ⟨offset, reached, rfl⟩ :=
    exists_scanned wellFormed (used_of_ready wellFormed ready)
  simp only [scanOrder, List.getElem_map, List.getElem_range] at skipped ⊢
  apply gap_scanned_le wellFormed _ reached
  by_contra earlier
  have refused := skipped offset (Nat.not_le.mp earlier)
  rw [Process.isReady, ready] at refused
  cases refused

theorem not_ready_of_nextReady? (wellFormed : table.WellFormed)
    (nobody : table.nextReady? = none) (slot : Fin 16) :
    table.slots[slot].state ≠ .ready := by
  intro ready
  obtain ⟨offset, reached, rfl⟩ :=
    exists_scanned wellFormed (used_of_ready wellFormed ready)
  have refused := List.find?_eq_none.mp nobody _
    (List.mem_map_of_mem (List.mem_range.mpr reached))
  rw [Process.isReady, ready] at refused
  exact refused rfl

end ProcessTable

/-- What happens to a table while processes take turns.  The tick, a yield, a
halt and the start all take the same decision. -/
inductive TableEvent
  | decide
  | create (memory : Allocator) (request : SpawnRequest)
  | terminate (memory : Allocator) (id : ProcessId)
  | block (id : ProcessId)
  | wake (id : ProcessId)

namespace TableEvent

def isDecision : TableEvent → Bool
  | decide => true
  | _ => false

def Spares (id : ProcessId) : TableEvent → Prop
  | decide | create .. => True
  | terminate _ other | block other | wake other => other ≠ id

end TableEvent

namespace ProcessTable

variable {table : ProcessTable} {id : ProcessId} {place slot : Fin 16}

def step (table : ProcessTable) : TableEvent → ProcessTable
  | .decide => table.advance.1
  | .create memory request => (table.create memory request).table
  | .terminate memory id =>
      match table.terminate memory id with
      | .ok ended => ended.table
      | .error _ => table
  | .block id =>
      table.updateProcess id fun process => { process with state := .blocked }
  | .wake id =>
      table.updateProcess id fun process => { process with state := .ready }

def after (table : ProcessTable) (events : List TableEvent) : ProcessTable :=
  events.foldl step table

/-- Whom an event selects, and where.  With nobody ready, the current process
may go on without having been selected. -/
def selects? (table : ProcessTable) :
    TableEvent → Option (Fin 16 × ProcessId)
  | .decide => table.nextReady?.map fun slot => (slot, table.slots[slot].id)
  | _ => none

def selections (table : ProcessTable) :
    List TableEvent → List (Fin 16 × ProcessId)
  | [] => []
  | event :: rest =>
      (table.selects? event).toList ++ (table.step event).selections rest

theorem step_terminate (table : ProcessTable) (memory : Allocator)
    (id : ProcessId) :
    table.step (.terminate memory id) = table ∨
    ∃ slot, table.slotOf? id = some slot ∧
      table.step (.terminate memory id) =
        (table.clearSlot memory slot).table := by
  rw [step, terminate]
  cases found : table.slotOf? id with
  | none => exact Or.inl rfl
  | some slot => exact Or.inr ⟨slot, rfl, rfl⟩

theorem WellFormed.step (wellFormed : table.WellFormed)
    (event : TableEvent) : (table.step event).WellFormed := by
  cases event with
  | decide => exact wellFormed.advance
  | create memory request => exact wellFormed.create memory request
  | terminate memory id =>
      rcases step_terminate table memory id with same | ⟨slot, found, same⟩
      · rw [same]
        exact wellFormed
      · rw [same]
        exact wellFormed.clearSlot memory (live_of_slotOf? found).1
  | block id => exact wellFormed.updateState id (by decide) (by decide)
  | wake id => exact wellFormed.updateState id (by decide) (by decide)

theorem WellFormed.after (wellFormed : table.WellFormed)
    (events : List TableEvent) : (table.after events).WellFormed := by
  induction events generalizing table with
  | nil => exact wellFormed
  | cons event rest ih => exact ih (wellFormed.step event)

def Waits (table : ProcessTable) (id : ProcessId) (place : Fin 16) : Prop :=
  table.slots[place].id = id ∧ table.slots[place].state = .ready

theorem Waits.live (waits : table.Waits id place) :
    table.slots[place].isLive = true := by
  rw [Process.isLive, waits.2]
  rfl

theorem Waits.of_same {other : ProcessTable} (waits : table.Waits id place)
    (same : other.slots[place] = table.slots[place]) :
    other.Waits id place := by
  rw [Waits, same]
  exact waits

theorem Waits.decide (waits : table.Waits id place)
    (passed : table.nextReady? ≠ some place) :
    (table.step .decide).Waits id place := by
  refine ⟨((restates_advance table).id place).trans waits.1, ?_⟩
  rcases state_advance table place with
    ⟨found, _⟩ | ⟨_, same | ⟨running, _⟩⟩
  · exact absurd found passed
  · exact same.trans waits.2
  · rw [waits.2] at running
    cases running

theorem slots_updateProcess_of_ne {other : ProcessId}
    {change : Process → Process} (away : other ≠ table.slots[place].id) :
    (table.updateProcess other change).slots[place] =
      table.slots[place] := by
  unfold updateProcess
  cases found : table.slotOf? other with
  | none => rfl
  | some slot =>
      have elsewhere : place ≠ slot := by
        rintro rfl
        exact away (live_of_slotOf? found).2.symm
      exact (slots_update table slot place change).trans (if_neg elsewhere)

theorem Waits.step (waits : table.Waits id place)
    (wellFormed : table.WellFormed) {event : TableEvent}
    (spares : event.Spares id)
    (passed : event = .decide → table.nextReady? ≠ some place) :
    (table.step event).Waits id place := by
  cases event with
  | decide => exact waits.decide (passed rfl)
  | create memory request =>
      apply waits.of_same
      rw [ProcessTable.step]
      rcases create_cases table memory request with
        ⟨cause, nextId, same⟩ | ⟨slot, used, placement, found, _, same⟩
      · rw [same]
      · have vacant := (wellFormed.slotForNew?_eq_some found).1
        rw [same]
        exact slots_seat_of_ne (ne_of_live vacant waits.live).symm
  | terminate memory other =>
      rcases step_terminate table memory other with
        same | ⟨slot, found, same⟩
      · rw [same]
        exact waits
      · have elsewhere : place ≠ slot := by
          rintro rfl
          exact spares ((live_of_slotOf? found).2.symm.trans waits.1)
        rw [same]
        apply waits.of_same
        rw [slots_clearSlot, if_neg elsewhere]
  | block other | wake other =>
      have away : other ≠ table.slots[place].id := by
        rw [waits.1]
        exact spares
      exact waits.of_same (slots_updateProcess_of_ne away)

theorem cursor_updateProcess (table : ProcessTable) (id : ProcessId)
    (change : Process → Process) :
    (table.updateProcess id change).cursor = table.cursor := by
  unfold updateProcess
  split <;> rfl

theorem lastSelected_step (table : ProcessTable) (event : TableEvent) :
    (table.step event).lastSelected =
      ((table.selects? event).map (·.1)).getD table.lastSelected := by
  cases event with
  | decide =>
      rw [step, selects?]
      cases found : table.nextReady? with
      | none =>
          obtain ⟨current, same⟩ := advance_of_none found
          rw [same]
          rfl
      | some slot =>
          rw [advance_of_some found]
          rfl
  | create memory request =>
      rw [step]
      rcases create_cases table memory request with
        ⟨cause, nextId, same⟩ | ⟨slot, used, placement, _, _, same⟩ <;>
        rw [same] <;> rfl
  | terminate memory id =>
      rcases step_terminate table memory id with same | ⟨slot, _, same⟩ <;>
        rw [same] <;> rfl
  | block id | wake id =>
      exact congrArg (·.getD 15) (cursor_updateProcess table id _)

theorem lastSelected_after (table : ProcessTable)
    (events : List TableEvent) :
    (table.after events).lastSelected =
      ((table.selections events).getLast?.map (·.1)).getD
        table.lastSelected := by
  induction events generalizing table with
  | nil => rfl
  | cons event rest ih =>
      have later := ih (table.step event)
      rw [lastSelected_step] at later
      rw [selections, List.getLast?_append]
      refine later.trans ?_
      cases ((table.step event).selections rest).getLast? with
      | none => cases table.selects? event <;> rfl
      | some selection => rfl

theorem Waits.gap_step (waits : table.Waits id place)
    (wellFormed : table.WellFormed) {event : TableEvent}
    (spares : event.Spares id)
    (unselected : id ∉ (table.selects? event).toList.map (·.2)) :
    (table.step event).Waits id place ∧
      gap (table.step event).lastSelected place +
          (table.selects? event).toList.length ≤
        gap table.lastSelected place ∧
      (table.selects? event).toList.length = event.isDecision.toNat := by
  have shown := lastSelected_step table event
  cases event with
  | decide =>
      rw [selects?] at shown unselected ⊢
      cases found : table.nextReady? with
      | none =>
          exact absurd waits.2
            (not_ready_of_nextReady? wellFormed found place)
      | some next =>
          rw [found] at shown unselected
          have elsewhere : next ≠ place := by
            rintro rfl
            exact unselected (List.mem_singleton.mpr waits.1.symm)
          have first := gap_nextReady?_le wellFormed found waits.2
          have before := Nat.lt_of_le_of_ne first
            fun same => elsewhere (gap_injective same)
          have shorter := gap_add before
          refine ⟨waits.decide ?_, ?_, rfl⟩
          · rw [found]
            exact fun same => elsewhere (Option.some.inj same)
          · rw [shown]
            simp only [Option.map_some, Option.getD_some,
              Option.toList_some, List.length_singleton]
            omega
  | create | terminate | block | wake =>
      refine ⟨waits.step wellFormed spares fun same => ?_, ?_, rfl⟩
      · cases same
      · rw [shown]
        exact Nat.le_refl _

theorem Waits.gap_after (waits : table.Waits id place)
    (wellFormed : table.WellFormed) {events : List TableEvent}
    (spares : ∀ event ∈ events, event.Spares id)
    (unselected : id ∉ (table.selections events).map (·.2)) :
    (table.after events).Waits id place ∧
      gap (table.after events).lastSelected place +
          (table.selections events).length ≤
        gap table.lastSelected place ∧
      (table.selections events).length =
        events.countP TableEvent.isDecision := by
  -- What is left of the way and the selections made so far never add up to
  -- more than the way at the start.
  induction events generalizing table with
  | nil => exact ⟨waits, Nat.le_refl _, rfl⟩
  | cons event rest ih =>
      rw [selections, List.map_append, List.mem_append, not_or] at unselected
      obtain ⟨stillWaits, closer, counted⟩ := waits.gap_step wellFormed
        (spares event List.mem_cons_self) unselected.1
      obtain ⟨waitsAfter, closerAfter, countedAfter⟩ :=
        ih stillWaits (wellFormed.step event)
          (fun other member => spares other (List.mem_cons_of_mem _ member))
          unselected.2
      refine ⟨waitsAfter, ?_, ?_⟩
      · rw [selections, List.length_append]
        change gap ((table.step event).after rest).lastSelected place + _ ≤ _
        omega
      · rw [selections, List.length_append, List.countP_cons, counted,
          countedAfter, Nat.add_comm]
        cases event.isDecision <;> rfl

/-- What the turns of a table can be relied on for, given the slot selected
last. -/
structure RoundRobin (last : Fin 16) (table : ProcessTable) : Prop where
  first : ∀ slot id, table.selects? .decide = some (slot, id) →
    table.slots[slot].state = .ready ∧
    ∀ other : Fin 16, table.slots[other].state = .ready →
      gap last slot ≤ gap last other
  runs : ∀ slot id, table.selects? .decide = some (slot, id) →
    table.advance.2.running? = some id ∧
    table.advance.1.current = some slot ∧
    table.advance.1.slots[slot].id = id ∧
    table.advance.1.slots[slot].state = .running
  nobody : table.selects? .decide = none →
    ∀ slot : Fin 16, table.slots[slot].state ≠ .ready
  not_overtaken : ∀ slot selected reselected id between,
    table.selects? .decide = some (slot, selected) →
    (table.step .decide).state? id = some .ready →
    (∀ event ∈ between, TableEvent.Spares id event) →
    ((table.step .decide).after between).selects? .decide =
        some (slot, reselected) →
      id ∈ ((table.step .decide).selections between).map (·.2)
  soon : ∀ id later, table.state? id = some .ready →
    (∀ event ∈ later, TableEvent.Spares id event) →
    id ∉ (table.selections later).map (·.2) →
      (table.after later).state? id = some .ready ∧
      (table.selections later).length < capacity ∧
      later.countP TableEvent.isDecision < capacity

theorem waits_of_state? (ready : table.state? id = some .ready) :
    ∃ place, table.Waits id place := by
  obtain ⟨slot, found, same⟩ := state?_eq_some ready
  exact ⟨slot, (live_of_slotOf? found).2, same⟩

theorem Waits.state? (waits : table.Waits id place)
    (wellFormed : table.WellFormed) : table.state? id = some .ready := by
  have known := wellFormed.state?_of_live waits.live
  rw [waits.1, waits.2] at known
  exact known

theorem selects?_decide (selected : table.selects? .decide = some (slot, id)) :
    table.nextReady? = some slot ∧ table.slots[slot].id = id := by
  obtain ⟨next, found, same⟩ := Option.map_eq_some_iff.mp selected
  obtain ⟨rfl, named⟩ := Prod.mk.inj same
  exact ⟨found, named⟩

theorem advance_of_selects?
    (selected : table.selects? .decide = some (slot, id)) :
    table.advance.2.running? = some id ∧
    table.advance.1.current = some slot ∧
    table.advance.1.slots[slot].id = id ∧
    table.advance.1.slots[slot].state = .running := by
  obtain ⟨found, rfl⟩ := selects?_decide selected
  have named := (restates_advance table).id slot
  refine ⟨?_, ?_, named, ?_⟩
  · rw [advance_of_some found] at named
    rw [advance, found]
    dsimp only
    split <;> exact congrArg some named
  · rw [advance_of_some found]
    rfl
  · rcases state_advance table slot with ⟨_, _, after⟩ | ⟨missed, _⟩
    · exact after
    · exact absurd found missed

/-- A slot that is selected twice has gone once round the circle, so the way
to whoever still waits would have become longer. -/
theorem WellFormed.not_overtaken (wellFormed : table.WellFormed)
    {selected reselected : ProcessId} {between : List TableEvent}
    (first : table.selects? .decide = some (slot, selected))
    (ready : (table.step .decide).state? id = some .ready)
    (spares : ∀ event ∈ between, TableEvent.Spares id event)
    (second : ((table.step .decide).after between).selects? .decide =
      some (slot, reselected)) :
    id ∈ ((table.step .decide).selections between).map (·.2) := by
  by_contra unselected
  obtain ⟨place, waits⟩ := waits_of_state? ready
  have stepped := wellFormed.step .decide
  obtain ⟨waitsAfter, closer, _⟩ :=
    waits.gap_after stepped spares unselected
  have start : (table.step .decide).lastSelected = slot := by
    rw [lastSelected_step, first]
    rfl
  have elsewhere : slot ≠ place := by
    rintro rfl
    have runs := (advance_of_selects? first).2.2.2
    have waiting : table.advance.1.slots[slot].state = .ready := waits.2
    rw [runs] at waiting
    cases waiting
  -- The scan would now reach the slot before the place, so the place is
  -- farther from where the scan stands than from the slot; yet the way to it
  -- has only shrunk since the slot was selected.
  have near := gap_nextReady?_le (stepped.after between)
    (selects?_decide second).1 waitsAfter.2
  have longer := gap_add
    (Nat.lt_of_le_of_ne near fun same => elsewhere (gap_injective same))
  rw [start] at closer
  omega

theorem WellFormed.roundRobin (wellFormed : table.WellFormed) :
    table.RoundRobin table.lastSelected := by
  constructor
  · intro slot id selected
    have found := (selects?_decide selected).1
    exact ⟨ready_of_nextReady? found, fun other ready =>
      gap_nextReady?_le wellFormed found ready⟩
  · intro slot id selected
    exact advance_of_selects? selected
  · intro unselected
    exact not_ready_of_nextReady? wellFormed
      (Option.map_eq_none_iff.mp unselected)
  · intro slot selected reselected id between first ready spares second
    exact wellFormed.not_overtaken first ready spares second
  · intro id later ready spares unselected
    obtain ⟨place, waits⟩ := waits_of_state? ready
    obtain ⟨waitsAfter, closer, counted⟩ :=
      waits.gap_after wellFormed spares unselected
    have bound := gap_lt table.lastSelected place
    have few : (table.selections later).length < capacity := by
      rw [capacity]
      omega
    exact ⟨waitsAfter.state? (wellFormed.after later), few, counted ▸ few⟩

/-- A table takes turns throughout every run, whatever is created, ended,
blocked or woken in between. -/
theorem roundRobin_after (events : List TableEvent) :
    (empty.after events).RoundRobin
      (((empty.selections events).getLast?.map (·.1)).getD 15) := by
  have rotates := (wellFormed_empty.after events).roundRobin
  rw [lastSelected_after] at rotates
  exact rotates

end ProcessTable

end Nucleus
