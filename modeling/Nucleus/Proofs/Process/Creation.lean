import Nucleus.Proofs.Memory.FirstFit
import Nucleus.Proofs.Process.Quarters

namespace Nucleus

def SpawnRequest.newcomer (request : SpawnRequest) (id : ProcessId)
    (handle : RegionHandle) (stack : Region) : Process where
  id := id
  context :=
    { registers := Vector.ofFn fun index : Fin 31 =>
        if index.val = 30 then request.exitLink else 0
      stackPointer := UInt64.ofNat (stack.base + stack.length)
      programCounter := request.entry
      processorState := request.mode.processorState.raw }
  state := .ready
  mode := request.mode
  stack := some handle
  stackBase := stack.base
  stackSize := stack.length
  heapBase := 0
  input := KeyRing.empty
  focused := false
  name := ProcessName.ofString request.name

namespace ProcessTable

variable {table : ProcessTable} {request : SpawnRequest} {id : ProcessId}
  {handle : RegionHandle} {stack : Region} {slot : Fin 16} {used : Nat}

theorem newProcess_eq (aligned : stack.stop % 16 = 0) :
    newProcess request id handle stack =
      request.newcomer id handle stack := by
  have registers : (Vector.replicate 31 0).set 30 request.exitLink =
      Vector.ofFn fun index : Fin 31 =>
        if index.val = 30 then request.exitLink else 0 := by
    ext index inside
    simp only [Vector.getElem_set, Vector.getElem_replicate,
      Vector.getElem_ofFn, eq_comm]
  have top : alignStack stack.stop = stack.base + stack.length := by
    rw [alignStack, aligned]
    rfl
  rw [newProcess, Context.start, top, registers]
  rfl

/-- The slot that the next process takes, and how many slots are used then. -/
inductive Opens (table : ProcessTable) (slot : Fin 16) : Nat → Prop
  | grown (next : slot.val = table.used) : Opens table slot (table.used + 1)
  | reused (full : table.used = 16)
      (stopped : table.slots[slot].state = .stopped)
      (first : ∀ other, other < slot → table.slots[other].state ≠ .stopped) :
      Opens table slot table.used

theorem Opens.next (opens : table.Opens slot used) (grows : table.used < 16) :
    slot.val = table.used := by
  cases opens with
  | grown next => exact next
  | reused full => exact absurd full grows.ne

theorem WellFormed.opens (wellFormed : table.WellFormed)
    (found : table.slotForNew? = some (slot, used)) :
    table.Opens slot used := by
  unfold slotForNew? at found
  split at found
  · obtain ⟨rfl, rfl⟩ := Prod.mk.inj (Option.some.inj found)
    exact .grown rfl
  · rename_i full
    obtain ⟨first, searched, same⟩ := Option.map_eq_some_iff.mp found
    obtain ⟨rfl, rfl⟩ := Prod.mk.inj same
    have stopped := Slots.accepts_of_first? searched
    refine .reused (Nat.le_antisymm wellFormed.used_le (Nat.not_lt.mp full))
      (beq_iff_eq.mp stopped) fun other before => ?_
    exact beq_eq_false_iff_ne.mp (Slots.not_accepts_of_lt searched before)

theorem WellFormed.full_of_slotForNew? (wellFormed : table.WellFormed)
    (none : table.slotForNew? = none) :
    table.used = 16 ∧ ∀ slot : Fin 16, table.slots[slot].isLive = true := by
  unfold slotForNew? at none
  split at none
  · cases none
  · rename_i full
    have taken := Slots.first?_eq_none_iff.mp
      (Option.map_eq_none_iff.mp none)
    refine ⟨Nat.le_antisymm wellFormed.used_le (Nat.not_lt.mp full),
      fun slot => ?_⟩
    exact bne_iff_ne.mpr (beq_eq_false_iff_ne.mp (taken slot))

end ProcessTable

namespace Quarters

open ProcessTable (Creation)

variable {quarters : Quarters} {request : SpawnRequest}

inductive Refuses (quarters : Quarters) (request : SpawnRequest) :
    ProcessError → Prop
  | stackless (nothing : request.stackSize = 0) :
      Refuses quarters request .invalidStackSize
  | full (sized : request.stackSize ≠ 0) (used : quarters.table.used = 16)
      (taken : ∀ slot : Fin 16, quarters.table.slots[slot].isLive = true) :
      Refuses quarters request .tableFull
  | cramped (sized : request.stackSize ≠ 0)
      (vacancy : ∃ slot used, quarters.table.Opens slot used)
      (cause : MemoryError)
      (refuses : quarters.memory.Refuses request.stackSize cause) :
      Refuses quarters request (.noStack cause)

/-- Nothing has changed but the identifier that comes next. -/
structure Spares (before : Quarters) (created : Creation) : Prop where
  slots : created.table.slots = before.table.slots
  current : created.table.current = before.table.current
  cursor : created.table.cursor = before.table.cursor
  used : created.table.used = before.table.used
  live : created.table.live = before.table.live
  memory : created.memory = before.memory

structure Seats (before : Quarters) (request : SpawnRequest)
    (id : ProcessId) (slot : Fin 16) (grant : Allocator.Grant)
    (created : Creation) : Prop where
  opens : before.table.Opens slot created.table.used
  free : before.table.Free id
  allocated : before.memory.allocate request.stackSize id = .ok grant
  memory : created.memory = grant.memory
  newcomer : created.table.slots[slot] =
    request.newcomer id grant.handle grant.region
  aligned : grant.region.stop % 16 = 0
  crash_iff : created.overflows = true ↔ maxWord < grant.region.stop
  stackPointer : created.overflows = false →
    created.table.slots[slot].context.stackPointer.toNat =
      created.table.slots[slot].stackTop
  others : ∀ other : Fin 16, other ≠ slot →
    created.table.slots[other] = before.table.slots[other]
  current : created.table.current = before.table.current
  cursor : created.table.cursor = before.table.cursor
  live : created.table.live = before.table.live + 1

inductive Creates (before : Quarters) (request : SpawnRequest)
    (created : Creation) : Prop
  | failed (cause : ProcessError) (outcome : created.outcome = .error cause)
      (refuses : before.Refuses request cause)
      (spares : before.Spares created)
  | seated (id : ProcessId) (slot : Fin 16) (grant : Allocator.Grant)
      (outcome : created.outcome = .ok (id, slot))
      (seats : before.Seats request id slot grant created)

theorem Sound.refuses_of_create (sound : quarters.Sound)
    {cause : ProcessError}
    (failed : (quarters.table.create quarters.memory request).outcome =
      .error cause) : quarters.Refuses request cause := by
  unfold ProcessTable.create at failed
  split at failed
  · rename_i nothing
    obtain rfl := Except.error.inj failed
    exact .stackless nothing
  · rename_i sized
    cases found : quarters.table.slotForNew? with
    | none =>
        rw [found] at failed
        obtain rfl := Except.error.inj failed
        obtain ⟨used, taken⟩ := sound.table.full_of_slotForNew? found
        exact .full sized used taken
    | some choice =>
        obtain ⟨slot, used⟩ := choice
        rw [found] at failed
        dsimp only at failed
        rcases quarters.memory.place?_cases request.stackSize with
          ⟨refusal, placed, refuses⟩ | ⟨placement, placed, _⟩
        · rw [placed] at failed
          obtain rfl := Except.error.inj failed
          exact .cramped sized ⟨slot, used, sound.table.opens found⟩ refusal
            refuses
        · rw [placed] at failed
          cases failed

theorem Sound.stop_granted (sound : quarters.Sound)
    (placement : Allocator.Placement) (owner : ProcessId) :
    (quarters.memory.grant placement owner).region.stop % 16 = 0 := by
  have aligned := sound.memory.window_aligned
  simp only [Region.stop, Allocator.grant, pageSize] at aligned ⊢
  omega

theorem Sound.seats (sound : quarters.Sound) {slot : Fin 16} {used : Nat}
    {placement : Allocator.Placement} {id : ProcessId}
    {grant : Allocator.Grant} {created : Creation}
    (found : quarters.table.slotForNew? = some (slot, used))
    (placed : quarters.memory.place? request.stackSize = .ok placement)
    (named : id = quarters.table.newId)
    (granted : grant = quarters.memory.grant placement id)
    (same : created =
      ⟨quarters.table.seat slot
          (ProcessTable.newProcess request id grant.handle grant.region) used
          (id.raw + 1), grant.memory, .ok (id, slot)⟩) :
    quarters.Seats request id slot grant created := by
  have vacant := (sound.table.slotForNew?_eq_some found).1
  have aligned := sound.stop_granted placement id
  rw [← granted] at aligned
  have newcomer : created.table.slots[slot] =
      request.newcomer id grant.handle grant.region := by
    rw [same, ← ProcessTable.newProcess_eq aligned]
    exact ProcessTable.slots_seat_self
  have crash_iff : created.overflows = true ↔
      maxWord < grant.region.stop := by
    have stackTop : created.overflows =
        overflowsWord created.table.slots[slot].stackTop := by
      rw [same]
      rfl
    rw [stackTop, newcomer]
    exact overflowsWord_iff _
  exact
    { opens := by rw [same]; exact sound.table.opens found
      free := by rw [named]; exact ProcessTable.newId_free vacant
      allocated := by rw [Allocator.allocate, placed, granted]
      memory := by rw [same]
      newcomer := newcomer
      aligned := aligned
      crash_iff := crash_iff
      stackPointer := fun fits => by
        rw [newcomer]
        apply toNat_ofNat_of_le_maxWord
        rw [← Nat.not_lt, ← Region.stop, ← crash_iff, fits]
        exact Bool.false_ne_true
      others := fun other away => by
        rw [same]
        exact ProcessTable.slots_seat_of_ne away
      current := by rw [same]; rfl
      cursor := by rw [same]; rfl
      live := by rw [same]; rfl }

theorem Sound.creates (sound : quarters.Sound) (request : SpawnRequest) :
    quarters.Creates request
      (quarters.table.create quarters.memory request) := by
  rcases ProcessTable.create_cases quarters.table quarters.memory request with
    ⟨cause, nextId, same⟩ | ⟨slot, used, placement, found, placed, same⟩
  · have outcome :
        (quarters.table.create quarters.memory request).outcome =
          .error cause := by rw [same]
    refine .failed cause outcome (sound.refuses_of_create outcome) ?_
    rw [same]
    exact ⟨rfl, rfl, rfl, rfl, rfl, rfl⟩
  · refine .seated quarters.table.newId slot _ ?_
      (sound.seats found placed rfl rfl same)
    rw [same]

/-- A slot that has not been used holds nobody. -/
theorem Sound.vacant_of_used_le (sound : quarters.Sound) {slot : Fin 16}
    (beyond : quarters.table.used ≤ slot.val) :
    quarters.table.slots[slot] = Process.vacant := by
  apply sound.table.vacant
  rw [Bool.eq_false_iff]
  intro live
  exact absurd (sound.table.below slot live) (Nat.not_lt.mpr beyond)

theorem Sound.used_le_actAll (sound : quarters.Sound)
    (actions : List Action) :
    quarters.table.used ≤ (quarters.actAll actions).table.used := by
  refine (actAll_induction (motive := fun later =>
    later.Sound ∧ quarters.table.used ≤ later.table.used) ?_
    ⟨sound, Nat.le_refl _⟩ actions).2
  intro before after becomes kept
  exact ⟨becomes.sound kept.1, kept.2.trans (becomes.used_le kept.1)⟩

/-- Whatever has been asked of the table and the allocator, a creation either
changes nothing but the next identifier or makes the process that was asked for.
A slot that the table grows by has never held anybody. -/
theorem creation_all_or_nothing (base size : Nat) (actions : List Action)
    (request : SpawnRequest) :
    let quarters := (opened base size).actAll actions
    let created := quarters.table.create quarters.memory request
    quarters.Creates request created ∧
      ∀ id slot, created.outcome = .ok (id, slot) →
        quarters.table.used < 16 → ∀ earlier later,
          actions = earlier ++ later →
            ((opened base size).actAll earlier).table.slots[slot] =
              Process.vacant := by
  intro quarters created
  have sound : quarters.Sound := sound_actAll base size actions
  have creates : quarters.Creates request created := sound.creates request
  refine ⟨creates, fun id slot outcome grows earlier later split => ?_⟩
  cases creates with
  | failed cause failed => rw [outcome] at failed; cases failed
  | seated other place grant seated seats =>
      rw [outcome] at seated
      obtain ⟨rfl, rfl⟩ := Prod.mk.inj (Except.ok.inj seated)
      have next := seats.opens.next grows
      have before := sound_actAll base size earlier
      apply before.vacant_of_used_le
      have later := before.used_le_actAll later
      rw [← actAll_append, ← split] at later
      exact later.trans_eq next.symm

namespace SecondTenant

def tenant : SpawnRequest where
  entry := 0x1000
  stackSize := pageSize
  mode := .user
  name := "tenant"
  exitLink := 0x40000200

def earlier : List Action := [.create tenant, .focus ⟨1⟩]

def later : List Action := [.terminate ⟨1⟩]

end SecondTenant

open SecondTenant in
/-- The first slot is free again, but the table grows by the second one. -/
theorem creation_all_or_nothing_while_growing :
    let quarters := (opened 0x48000000 0x4000).actAll (earlier ++ later)
    let created := quarters.table.create quarters.memory tenant
    quarters.Creates tenant created ∧ created.outcome = .ok (⟨2⟩, 1) ∧
      ((opened 0x48000000 0x4000).actAll earlier).table.slots[(1 : Fin 16)] =
        Process.vacant := by
  have outcome : (((opened 0x48000000 0x4000).actAll
      (earlier ++ later)).table.create ((opened 0x48000000 0x4000).actAll
        (earlier ++ later)).memory tenant).outcome = .ok (⟨2⟩, 1) := by
    decide +kernel
  obtain ⟨creates, unused⟩ :=
    creation_all_or_nothing 0x48000000 0x4000 (earlier ++ later) tenant
  exact ⟨creates, outcome,
    unused ⟨2⟩ 1 outcome (by decide +kernel) earlier later rfl⟩

end Quarters

end Nucleus
