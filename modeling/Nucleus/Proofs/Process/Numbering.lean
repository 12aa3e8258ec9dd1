import Mathlib.Data.Fintype.Pigeonhole
import Nucleus.Proofs.Process.Quarters

/-!
Numbering.  A creation that has been given a slot finds an identifier of its own
within seventeen attempts.  Every search of a run goes on where the one before
it has stopped, so that the counter has been through all of its values by the
time an identifier is found again.
-/

namespace Nucleus

/-- A counter takes the values one after the other, from `start` on; `stop`
comes next. -/
inductive Counts : UInt16 → List UInt16 → UInt16 → Prop
  | still (value : UInt16) : Counts value [] value
  | on {value stop : UInt16} {rest : List UInt16}
      (later : Counts (value + 1) rest stop) :
      Counts value (value :: rest) stop

namespace Counts

variable {start middle stop : UInt16} {values more : List UInt16}

theorem append (counts : Counts start values middle)
    (further : Counts middle more stop) :
    Counts start (values ++ more) stop := by
  induction counts with
  | still => exact further
  | on _ ih => exact .on (ih further)

theorem stop_eq (counts : Counts start values stop) :
    stop = start + UInt16.ofNat values.length := by
  induction counts with
  | still value => exact (UInt16.add_zero value).symm
  | on _ ih => rw [ih, List.length_cons, ProcessTable.add_ofNat_succ]

theorem mem_of_lt (counts : Counts start values stop) {offset : Nat}
    (reached : offset < values.length) :
    start + UInt16.ofNat offset ∈ values := by
  induction counts generalizing offset with
  | still => cases reached
  | @on value _ _ _ ih =>
      cases offset with
      | zero =>
          rw [show value + UInt16.ofNat 0 = value from UInt16.add_zero value]
          exact List.mem_cons_self
      | succ offset =>
          rw [ProcessTable.add_ofNat_succ]
          exact List.mem_cons_of_mem _ (ih (Nat.lt_of_succ_lt_succ reached))

/-- A counter that is back where it started has taken every value. -/
theorem mem_of_return (counts : Counts start values start)
    (moved : values ≠ []) (value : UInt16) : value ∈ values := by
  have round : UInt16.ofNat values.length = 0 := by
    have same := counts.stop_eq
    rwa [eq_comm, UInt16.add_eq_left] at same
  have whole : 65536 ≤ values.length := by
    have remainder := congrArg UInt16.toNat round
    have positive := List.length_pos_iff.mpr moved
    rw [UInt16.toNat_ofNat'] at remainder
    simp only [UInt16.reduceToNat] at remainder
    omega
  have reached : (value - start).toNat < values.length :=
    Nat.lt_of_lt_of_le (value - start).toNat_lt whole
  have member := counts.mem_of_lt reached
  rwa [UInt16.ofNat_toNat, UInt16.add_comm, UInt16.sub_add_cancel] at member

end Counts

namespace ProcessTable

variable {table after : ProcessTable} {tried : List UInt16} {id : ProcessId}

theorem Searches.counts (searches : table.Searches tried id after) :
    Counts table.nextId tried (id.raw + 1) := by
  induction searches with
  | taken => exact .on (.still _)
  | passed _ _ ih => exact .on ih

theorem length_liveSlots_le {spare : Fin 16}
    (vacant : table.slots[spare].isLive = false) :
    table.liveSlots.length ≤ 15 := by
  have fewer : table.liveSlots.length < (List.finRange 16).length := by
    apply List.length_filter_lt_length_iff_exists.mpr
    refine ⟨spare, List.mem_finRange spare, ?_⟩
    dsimp only
    rw [vacant]
    exact Bool.false_ne_true
  rw [List.length_finRange] at fewer
  exact Nat.le_of_lt_succ fewer

theorem nextId_updateProcess (table : ProcessTable) (id : ProcessId)
    (change : Process → Process) :
    (table.updateProcess id change).nextId = table.nextId := by
  unfold updateProcess
  split <;> rfl

end ProcessTable

namespace Quarters

/-- What a search has tried, in this order, and what it has found. -/
structure Search where
  tried : List UInt16
  id : ProcessId
  deriving DecidableEq, Repr

/-- The table in which an action searches.  Only a creation does, and only once
it has been given a slot. -/
def searched? (quarters : Quarters) : Action → Option ProcessTable
  | .create request =>
      if request.stackSize = 0 then none
      else quarters.table.slotForNew?.map fun opening =>
        { quarters.table with used := opening.2 }
  | _ => none

inductive Logs : Quarters → List Action → List Search → Prop
  | nil {quarters : Quarters} : Logs quarters [] []
  | silent {quarters : Quarters} {action : Action} {rest : List Action}
      {log : List Search} (silent : quarters.searched? action = none)
      (later : Logs (quarters.act action) rest log) :
      Logs quarters (action :: rest) log
  | found {quarters : Quarters} {action : Action} {rest : List Action}
      {log : List Search} {table after : ProcessTable} {search : Search}
      (searched : quarters.searched? action = some table)
      (searches : table.Searches search.tried search.id after)
      (later : Logs (quarters.act action) rest log) :
      Logs quarters (action :: rest) (search :: log)

/-- How a creation comes by its identifier. -/
structure Numbers (quarters : Quarters) (request : SpawnRequest)
    (table : ProcessTable) (search : Search) : Prop where
  /-- Nothing but the counter changes. -/
  ends : table.Searches search.tried search.id
    { table with nextId := search.id.raw + 1 }
  soon : search.tried.length ≤ 17
  named : search.id ≠ ProcessId.kernel
  unheld : ∀ slot : Fin 16, table.slots[slot].isLive = true →
    table.slots[slot].id ≠ search.id
  counter : (quarters.act (.create request)).table.nextId = search.id.raw + 1
  given : ∀ id slot,
    (quarters.table.create quarters.memory request).outcome =
      .ok (id, slot) → id = search.id

variable {quarters : Quarters} {table : ProcessTable} {action : Action}
  {request : SpawnRequest} {search : Search}

theorem searched?_eq_some (searched : quarters.searched? action = some table) :
    ∃ request slot used, action = .create request ∧ request.stackSize ≠ 0 ∧
      quarters.table.slotForNew? = some (slot, used) ∧
      table = { quarters.table with used := used } := by
  cases action with
  | create request =>
      rw [searched?] at searched
      split at searched
      · cases searched
      · rename_i sized
        obtain ⟨⟨slot, used⟩, found, same⟩ :=
          Option.map_eq_some_iff.mp searched
        exact ⟨request, slot, used, rfl, sized, found, same.symm⟩
  | request | terminate | focus | deliver | decide | block | wake | revise =>
      cases searched

theorem nextId_act_of_silent (silent : quarters.searched? action = none) :
    (quarters.act action).table.nextId = quarters.table.nextId := by
  cases action with
  | create request =>
      rw [act, ProcessTable.create]
      rw [searched?] at silent
      split at silent
      · rename_i nothing
        rw [if_pos nothing]
      · rename_i sized
        rw [if_neg sized, Option.map_eq_none_iff.mp silent]
  | request => rfl
  | terminate id =>
      rw [act, ProcessTable.terminate]
      cases quarters.table.slotOf? id <;> rfl
  | focus id =>
      rw [act, ProcessTable.focus]
      cases quarters.table.slotOf? id <;> rfl
  | deliver event =>
      rw [act, ProcessTable.deliver?]
      cases quarters.table.focusedSlot? <;> rfl
  | decide => exact (ProcessTable.counters_advance quarters.table).2.2
  | block | wake | revise =>
      exact ProcessTable.nextId_updateProcess _ _ _

theorem nextId_act_create (searched :
    quarters.searched? (.create request) = some table) :
    (quarters.act (.create request)).table.nextId = table.newId.raw + 1 := by
  obtain ⟨_, slot, used, same, sized, found, rfl⟩ :=
    searched?_eq_some searched
  cases same
  rw [act, ProcessTable.create, if_neg sized, found]
  dsimp only
  cases quarters.memory.place? request.stackSize with
  | error cause =>
      dsimp only
      rw [ProcessTable.cancel]
      split <;> rfl
  | ok placement => rfl

theorem outcome_create (searched :
    quarters.searched? (.create request) = some table) {id : ProcessId}
    {slot : Fin 16}
    (created : (quarters.table.create quarters.memory request).outcome =
      .ok (id, slot)) : id = table.newId := by
  obtain ⟨_, _, used, same, sized, found, rfl⟩ := searched?_eq_some searched
  cases same
  rw [ProcessTable.newId_reserve]
  rcases ProcessTable.create_cases quarters.table quarters.memory request with
    ⟨cause, nextId, failed⟩ | ⟨_, _, placement, _, _, seated⟩
  · rw [failed] at created
    cases created
  · rw [seated] at created
    exact (congrArg Prod.fst (Except.ok.inj created)).symm

theorem Sound.vacant_of_searched? (sound : quarters.Sound)
    (searched : quarters.searched? action = some table) :
    ∃ spare : Fin 16, table.slots[spare].isLive = false := by
  obtain ⟨_, slot, used, _, _, found, rfl⟩ := searched?_eq_some searched
  exact ⟨slot, (sound.table.slotForNew?_eq_some found).1⟩

theorem Sound.numbers (sound : quarters.Sound) (searched :
    quarters.searched? (.create request) = some table) :
    ∃ search, quarters.Numbers request table search := by
  obtain ⟨spare, vacant⟩ := sound.vacant_of_searched? searched
  obtain ⟨tried, id, after, searches, soon⟩ :=
    ProcessTable.exists_searches_of_vacant vacant
  have newId : table.newId = id := searches.freshId_eq soon
  obtain rfl := searches.after_eq
  refine ⟨⟨tried, id⟩, searches, soon, searches.free.1, ?_, ?_, ?_⟩
  · obtain ⟨_, _, used, _, _, _, rfl⟩ := searched?_eq_some searched
    have free : quarters.table.Free id := searches.free
    exact fun slot live => free.id_ne sound.table live
  · rw [nextId_act_create searched, newId]
  · intro other slot created
    rw [outcome_create searched created, newId]

theorem Sound.act (sound : quarters.Sound) (action : Action) :
    (quarters.act action).Sound :=
  (becomes_act quarters action).sound sound

theorem Sound.exists_logs (sound : quarters.Sound) (actions : List Action) :
    ∃ log, quarters.Logs actions log := by
  induction actions generalizing quarters with
  | nil => exact ⟨[], .nil⟩
  | cons action rest ih =>
      obtain ⟨log, later⟩ := ih (sound.act action)
      cases searched : quarters.searched? action with
      | none => exact ⟨log, .silent searched later⟩
      | some table =>
          obtain ⟨request, _, _, rfl, _⟩ := searched?_eq_some searched
          obtain ⟨search, numbers⟩ := sound.numbers searched
          exact ⟨search :: log, .found searched numbers.ends later⟩

theorem Logs.unique {actions : List Action} {log other : List Search}
    (logs : quarters.Logs actions log) (again : quarters.Logs actions other) :
    other = log := by
  induction logs generalizing other with
  | nil =>
      cases again
      rfl
  | silent silent later ih =>
      cases again with
      | silent _ laterAgain => exact ih laterAgain
      | found searched => cases silent.symm.trans searched
  | @found _ _ _ _ _ _ search searched searches later ih =>
      cases again with
      | silent silent => cases silent.symm.trans searched
      | @found _ _ _ _ _ _ searchAgain searchedAgain searchesAgain laterAgain =>
          cases searched.symm.trans searchedAgain
          obtain ⟨tried, id⟩ := searches.unique searchesAgain
          have same : searchAgain = search := by
            cases search
            cases searchAgain
            exact congr (congrArg Search.mk tried) id
          rw [same, ih laterAgain]

/-- Every search goes on where the one before it has stopped. -/
inductive Continues : UInt16 → List Search → Prop
  | nil (start : UInt16) : Continues start []
  | cons {start : UInt16} {search : Search} {log : List Search}
      (moves : search.tried ≠ [])
      (counts : Counts start search.tried (search.id.raw + 1))
      (later : Continues (search.id.raw + 1) log) :
      Continues start (search :: log)

theorem Logs.continues (sound : quarters.Sound) {actions : List Action}
    {log : List Search} (logs : quarters.Logs actions log) :
    Continues quarters.table.nextId log := by
  induction logs with
  | nil => exact .nil _
  | silent silent later ih =>
      have goesOn := ih (sound.act _)
      rwa [nextId_act_of_silent silent] at goesOn
  | found searched searches later ih =>
      have goesOn := ih (sound.act _)
      obtain ⟨request, _, _, rfl, _⟩ := searched?_eq_some searched
      obtain ⟨other, numbers⟩ := sound.numbers searched
      -- The search in the log is the one that the creation is known to make.
      have found := (searches.unique numbers.ends).2
      rw [numbers.counter, found] at goesOn
      have counts := searches.counts
      obtain ⟨_, _, _, _, _, _, rfl⟩ := searched?_eq_some searched
      exact .cons searches.ne_nil counts goesOn

section Continues

variable {start : UInt16} {log : List Search}

theorem Continues.drop (continues : Continues start log) {index : Nat}
    (inside : index < log.length) :
    Continues (log[index].id.raw + 1) (log.drop (index + 1)) := by
  induction continues generalizing index with
  | nil => cases inside
  | cons _ _ later ih =>
      cases index with
      | zero => exact later
      | succ index => exact ih (Nat.lt_of_succ_lt_succ inside)

theorem Continues.counts (continues : Continues start log) {index : Nat}
    (inside : index < log.length) :
    Counts start ((log.take (index + 1)).flatMap (·.tried))
      (log[index].id.raw + 1) := by
  induction continues generalizing index with
  | nil => cases inside
  | cons _ counts _ ih =>
      rw [List.take_succ_cons, List.flatMap_cons]
      cases index with
      | zero =>
          rw [List.take_zero, List.flatMap_nil, List.append_nil]
          exact counts
      | succ index => exact counts.append (ih (Nat.lt_of_succ_lt_succ inside))

/-- Once the counter is back, every value has been tried. -/
theorem Continues.exists_tried (continues : Continues start log) {last : Nat}
    (inside : last < log.length) (back : log[last].id.raw + 1 = start)
    (value : UInt16) :
    ∃ index, ∃ within : index < log.length, index ≤ last ∧
      value ∈ log[index].tried := by
  have round := continues.counts inside
  rw [back] at round
  have moved : (log.take (last + 1)).flatMap (·.tried) ≠ [] := by
    cases continues with
    | nil => cases inside
    | cons moves =>
        rw [List.take_succ_cons, List.flatMap_cons]
        exact List.append_ne_nil_of_left_ne_nil moves _
  obtain ⟨search, member, tried⟩ :=
    List.mem_flatMap.mp (round.mem_of_return moved value)
  obtain ⟨index, within, rfl⟩ := List.mem_take_iff_getElem.mp member
  exact ⟨index, by omega, by omega, tried⟩

theorem Continues.exists_tried_between (continues : Continues start log)
    {first second : Fin log.length} (before : first < second)
    (same : log[first].id = log[second].id) (value : UInt16) :
    ∃ between : Fin log.length, first < between ∧ between ≤ second ∧
      value ∈ log[between].tried := by
  -- Behind the first search the counter stands one past what was found, and
  -- there the second search leaves it again.
  have later := continues.drop first.isLt
  have ahead : first.val + 1 + (second.val - (first.val + 1)) = second.val := by
    omega
  have inside : second.val - (first.val + 1) <
      (log.drop (first.val + 1)).length := by
    rw [List.length_drop]
    omega
  have back : (log.drop (first.val + 1))[second.val -
      (first.val + 1)].id.raw + 1 = log[first].id.raw + 1 := by
    rw [same, List.getElem_drop]
    simp only [ahead]
    rfl
  obtain ⟨index, within, upTo, tried⟩ := later.exists_tried inside back value
  rw [List.getElem_drop] at tried
  rw [List.length_drop] at within
  refine ⟨⟨first.val + 1 + index, by omega⟩, ?_, ?_, tried⟩
  · exact Fin.mk_lt_mk.mpr (by omega)
  · exact Fin.mk_le_mk.mpr (by omega)

end Continues

def renumber (quarters : Quarters) (counter : UInt16) : Quarters :=
  { quarters with table := { quarters.table with nextId := counter } }

/-- Whatever has been asked of the table and the allocator, and wherever the
counter stands: a creation that has found a slot finds an identifier of its own
within seventeen attempts, and in what is asked from then on no identifier is
found again before every value of the counter has been tried. -/
theorem identifiers_kept_apart (base size : Nat) (earlier : List Action)
    (counter : UInt16) :
    let start := ((opened base size).actAll earlier).renumber counter
    (∀ request table, start.searched? (.create request) = some table →
      table.liveSlots.length ≤ 15 ∧
        ∃ search, start.Numbers request table search) ∧
    ∀ later, ∃ log, (∀ other, start.Logs later other ↔ other = log) ∧
      ∀ first second : Fin log.length, first < second →
        log[first].id = log[second].id → ∀ value : UInt16,
          ∃ between : Fin log.length, first < between ∧ between ≤ second ∧
            value ∈ log[between].tried := by
  intro start
  have sound : start.Sound :=
    (Becomes.renumbered counter).sound (sound_actAll base size earlier)
  constructor
  · intro request table searched
    obtain ⟨spare, vacant⟩ := sound.vacant_of_searched? searched
    exact ⟨ProcessTable.length_liveSlots_le vacant, sound.numbers searched⟩
  · intro later
    obtain ⟨log, logs⟩ := sound.exists_logs later
    refine ⟨log, fun other => ⟨logs.unique, fun same => same ▸ logs⟩, ?_⟩
    intro first second before same value
    exact (logs.continues sound).exists_tried_between before same value

/-! A full house, and a counter that comes round. -/

namespace Crowd

def tenant : SpawnRequest where
  entry := 0x1000
  stackSize := pageSize
  mode := .user
  name := "tenant"
  exitLink := 0x40000200

def arrivals : List Action :=
  List.replicate 15 (.create tenant)

end Crowd

open Crowd

theorem act_create_of_no_memory (counter : UInt16) :
    ∃ next, ((opened 0 0).renumber counter).act (.create tenant) =
      (opened 0 0).renumber next := by
  have refused : (opened 0 0).memory.place? pageSize = .error .exhausted := rfl
  rcases ProcessTable.create_cases ((opened 0 0).renumber counter).table
      (opened 0 0).memory tenant with
    ⟨cause, next, same⟩ | ⟨_, _, placement, _, placed, _⟩
  · exact ⟨next, congrArg
      (fun created : ProcessTable.Creation =>
        (⟨created.table, created.memory⟩ : Quarters)) same⟩
  · cases refused.symm.trans placed

theorem Logs.length_of_no_memory {counter : UInt16} {count : Nat}
    {log : List Search} (logs : ((opened 0 0).renumber counter).Logs
      (List.replicate count (.create tenant)) log) : log.length = count := by
  induction count generalizing counter log with
  | zero =>
      cases logs
      rfl
  | succ count ih =>
      rw [List.replicate_succ] at logs
      cases logs with
      | silent silent => cases silent
      | found _ _ later =>
          obtain ⟨next, same⟩ := act_create_of_no_memory counter
          rw [same] at later
          rw [List.length_cons, ih later]

/-- There are no more identifiers than the counter has values. -/
theorem exists_same_id {log : List Search}
    (many : UInt16.size < log.length) :
    ∃ first second : Fin log.length, first < second ∧
      log[first].id = log[second].id := by
  have fewer : Fintype.card (Fin UInt16.size) <
      Fintype.card (Fin log.length) := by
    rwa [Fintype.card_fin, Fintype.card_fin]
  obtain ⟨one, other, apart, equal⟩ := Fintype.exists_ne_map_eq_of_card_lt
    (fun index : Fin log.length => (log.get index).id.raw.toFin) fewer
  have same : (log.get one).id = (log.get other).id :=
    congrArg (fun value => ProcessId.mk (UInt16.ofFin value)) equal
  rcases Nat.lt_or_gt_of_ne (Fin.val_ne_of_ne apart) with before | behind
  · exact ⟨one, other, before, same⟩
  · exact ⟨other, one, behind, same.symm⟩

/-- With zero and fifteen processes in its way a search takes all seventeen
attempts.  And identifiers are found again: where nothing can be created, the
counter comes round within 65537 requests. -/
theorem identifiers_kept_apart_full_and_round :
    (∃ table search,
      (((opened 0x48000000 0x10000).actAll arrivals).renumber 0).searched?
          (.create tenant) = some table ∧
        (((opened 0x48000000 0x10000).actAll arrivals).renumber 0).Numbers
          tenant table search ∧
        search.id = ⟨16⟩ ∧ search.tried.length = 17) ∧
    ∃ log, (((opened 0 0).actAll []).renumber 0).Logs
        (List.replicate 65537 (.create tenant)) log ∧
      ∃ first second : Fin log.length, first < second ∧
        log[first].id = log[second].id ∧ ∀ value : UInt16,
          ∃ between : Fin log.length, first < between ∧ between ≤ second ∧
            value ∈ log[between].tried := by
  constructor
  · obtain ⟨finds, _⟩ := identifiers_kept_apart 0x48000000 0x10000 arrivals 0
    have searches : ((((opened 0x48000000 0x10000).actAll arrivals).renumber
        0).searched? (.create tenant)).isSome = true := by
      decide +kernel
    obtain ⟨table, searched⟩ := Option.isSome_iff_exists.mp searches
    obtain ⟨_, search, numbers⟩ := finds tenant table searched
    have counter : ((((opened 0x48000000 0x10000).actAll arrivals).renumber
        0).act (.create tenant)).table.nextId = 16 + 1 := by
      decide +kernel
    have raw : search.id.raw = 16 :=
      (UInt16.add_left_inj 1).mp (numbers.counter.symm.trans counter)
    have start : table.nextId = 0 := by
      obtain ⟨_, _, used, _, _, _, rfl⟩ := searched?_eq_some searched
      rfl
    have moved := congrArg UInt16.toNat numbers.ends.counts.stop_eq
    rw [start, raw, UInt16.zero_add, UInt16.toNat_ofNat'] at moved
    have soon := numbers.soon
    refine ⟨table, search, searched, numbers, congrArg ProcessId.mk raw, ?_⟩
    simp only [UInt16.reduceAdd, UInt16.reduceToNat] at moved
    omega
  · obtain ⟨_, spaced⟩ := identifiers_kept_apart 0 0 [] 0
    obtain ⟨log, logs, tried⟩ :=
      spaced (List.replicate 65537 (.create tenant))
    have logged := (logs log).mpr rfl
    have many : UInt16.size < log.length := by
      rw [logged.length_of_no_memory]
      exact Nat.lt_succ_self _
    obtain ⟨first, second, before, same⟩ := exists_same_id many
    exact ⟨log, logged, first, second, before, same,
      tried first second before same⟩

end Quarters

end Nucleus
