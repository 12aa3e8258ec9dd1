import Nucleus.Proofs.Executive.Possession

/-!
Restitution.  A process can give back whatever region of its heap starts at an
address.  What it is told depends on who owns what starts there, and unless all
went well nothing has changed.  So a region is given back once: the first
attempt succeeds, however long it takes, and those after it fail until something
is handed out there again.
-/

namespace Nucleus

theorem Process.heapBase_dropHeap (process : Process) (base : Nat) :
    (process.dropHeap base).heapBase =
      if process.heapBase = base then 0 else process.heapBase := by
  unfold dropHeap
  split <;> rfl

namespace ProcessTable

variable {table after before : ProcessTable} {id : ProcessId}
  {process : Process}

def heapBase? (table : ProcessTable) (id : ProcessId) : Option Nat :=
  (table.process? id).map (·.heapBase)

theorem Rewrites.heapBase? {rewrite : Context → Context}
    (rewrites : Rewrites id rewrite after before) :
    after.heapBase? = before.heapBase? := by
  funext other
  rw [ProcessTable.heapBase?, ProcessTable.heapBase?, rewrites.process?]
  split
  · rename_i here
    rw [here, Option.map_map]
    rfl
  · rfl

theorem heapBase?_rebase {change : Process → Process}
    (found : table.process? id = some process)
    (rebases : ∀ process, ∃ heapBase,
      change process = { process with heapBase := heapBase })
    (other : ProcessId) :
    (table.updateProcess id change).heapBase? other =
      if other = id then some (change process).heapBase
      else table.heapBase? other := by
  rw [heapBase?, process?_updateProcess]
  · split
    · rw [found]
      rfl
    · rfl
  · intro process
    obtain ⟨heapBase, same⟩ := rebases process
    rw [same]
  · intro process live
    obtain ⟨heapBase, same⟩ := rebases process
    rw [same]
    exact live

theorem heapBase?_dropHeap (found : table.process? id = some process)
    (base : Nat) (other : ProcessId) :
    (table.updateProcess id (·.dropHeap base)).heapBase? other =
      if other = id then
        some (if process.heapBase = base then 0 else process.heapBase)
      else table.heapBase? other := by
  rw [heapBase?_rebase found fun process => process.dropHeap_eq base,
    process.heapBase_dropHeap]

end ProcessTable

namespace Executive

variable {exec : Executive} {frame : Frame} {readings : Readings}
  {process : Process} {id : ProcessId} {base : Nat}
  {status : SyscallStatus} {after : Allocator}

theorem Coherent.heapBase?_capture (coherent : exec.Coherent)
    (context : Context) :
    (exec.capture context).table.heapBase? = exec.table.heapBase? := by
  rcases coherent.capture_cases context with
    ⟨_, same⟩ | ⟨holder, table, _, same, rewrites⟩
  · rw [same]
  · rw [same]
    exact rewrites.heapBase?

theorem heapBase?_heapRelease
    (found : exec.table.process? id = some process) (base : Nat)
    (other : ProcessId) :
    (exec.heapRelease id base).1.table.heapBase? other =
      if other = id ∧ (exec.heapRelease id base).2.2 = .ok then
        some (if process.heapBase = base then 0 else process.heapBase)
      else exec.table.heapBase? other := by
  unfold heapRelease
  rw [found]
  dsimp only
  split
  · exact (if_neg fun both => nomatch both.2).symm
  · cases exec.memory.releaseAt base id with
    | error cause =>
        exact (if_neg fun both => cause.status_ne_ok both.2).symm
    | ok memory =>
        simp only [and_true]
        exact ProcessTable.heapBase?_dropHeap found base other

/-- What a process is to be told that gives back what starts at an address. -/
inductive Owes (exec : Executive) (process : Process) (base : Nat) :
    SyscallStatus → Prop
  | ok (slot : Fin 128) (region : Region) (heap : base ≠ process.stackBase)
      (holds : exec.memory.Holds slot region) (starts : region.base = base)
      (owned : region.owner = process.id) : Owes exec process base .ok
  | stack (own : base = process.stackBase) :
      Owes exec process base .invalidArgument
  | foreign (slot : Fin 128) (region : Region)
      (holds : exec.memory.Holds slot region) (starts : region.base = base)
      (foreign : region.owner ≠ process.id) :
      Owes exec process base .notOwner
  | spent (nobody : ¬ exec.memory.Starts base)
      (inside : exec.memory.inWindow base = true)
      (aligned : base % pageSize = 0) :
      Owes exec process base .alreadyReleased
  | unknown (nobody : ¬ exec.memory.Starts base)
      (elsewhere : ¬ (exec.memory.inWindow base = true ∧
        base % pageSize = 0)) :
      Owes exec process base .unknownRegion

theorem Coherent.exists_stack (coherent : exec.Coherent)
    (found : exec.table.process? id = some process) :
    ∃ slot, exec.memory.Holds slot
      ⟨process.stackBase, process.stackSize, id⟩ := by
  obtain ⟨handle, _, named⟩ := coherent.secured_stack found
  exact ⟨handle.slot, Allocator.holds_of_region? named⟩

theorem Coherent.owes_unique (coherent : exec.Coherent)
    (found : exec.table.process? process.id = some process)
    {other : SyscallStatus} (first : exec.Owes process base status)
    (second : exec.Owes process base other) : status = other := by
  obtain ⟨slot, stack⟩ := coherent.exists_stack found
  have starts : exec.memory.Starts process.stackBase := ⟨slot, _, stack, rfl⟩
  have single : ∀ {slot other region otherRegion},
      exec.memory.Holds slot region →
        exec.memory.Holds other otherRegion →
          otherRegion.base = region.base → otherRegion = region :=
    fun holds others same => (coherent.memory.eq_of_base_eq holds others same).2
  -- The conditions exclude each other: an address is that of one region.
  cases first <;> cases second <;> grind [Allocator.Starts]

theorem Released.owes (layout : exec.memory.Layout)
    (released : Released exec.memory process.id process.stackBase base after
      status) : exec.Owes process base status := by
  cases released with
  | ownStack stack => exact .stack stack
  | refused cause heap refuses =>
      have redeems := layout.redeems_releaseAt base process.id
      rw [refuses] at redeems
      cases redeems with
      | foreign slot region holds starts foreign =>
          exact .foreign slot region holds starts foreign
      | spent nobody inside aligned => exact .spent nobody inside aligned
      | unknown nobody elsewhere => exact .unknown nobody elsewhere
  | released slot region heap holds starts owned releases =>
      exact .ok slot region heap holds starts owned

theorem Released.vacates {memory : Allocator} (layout : memory.Layout)
    {stackBase : Nat}
    (released : Released memory id stackBase base after .ok)
    {slot : Fin 128} {region : Region} (holds : memory.Holds slot region)
    (starts : region.base = base) :
    Allocator.Vacates slot region memory after := by
  generalize told : SyscallStatus.ok = status at released
  cases released with
  | ownStack stack => cases told
  | refused cause heap refuses => exact absurd told.symm cause.status_ne_ok
  | released other found heap others otherStarts owned releases =>
      obtain ⟨rfl, rfl⟩ := layout.eq_of_base_eq holds others
        (otherStarts.trans starts.symm)
      exact layout.vacates holds

theorem Released.kept {memory : Allocator} {stackBase : Nat}
    (released : Released memory id stackBase base after status)
    (failed : status ≠ .ok) : after = memory := by
  cases released with
  | ownStack | refused => rfl
  | released => exact absurd rfl failed

structure GivesBack (exec : Executive) (frame : Frame) (process : Process)
    (base : Nat) (trap : Trap) (status : SyscallStatus) : Prop where
  fatal : trap.fatal = none
  frame_eq : trap.frame = frame.resume
    (frame.context.setResult (UInt64.ofInt status.value))
  status_iff : ∀ other, status = other ↔ exec.Owes process base other
  /-- The end of the window is asked for where no region starts. -/
  crash_iff : .crash ∈ trap.effects ↔ ¬ exec.memory.Starts base ∧
    exec.memory.windowBase ≤ base ∧ maxWord < exec.memory.windowStop
  vacates : status = .ok → ∀ slot region, exec.memory.Holds slot region →
    region.base = base →
      Allocator.Vacates slot region exec.memory trap.exec.memory
  kept : status ≠ .ok → trap.exec.memory = exec.memory
  heapBase?_eq : ∀ id, trap.exec.table.heapBase? id =
    if id = process.id ∧ status = .ok then
      some (if process.heapBase = base then 0 else process.heapBase)
    else exec.table.heapBase? id

theorem Coherent.found_of_calls (coherent : exec.Coherent) {call : Syscall}
    (calls : exec.Calls frame process call) :
    exec.table.process? process.id = some process := by
  obtain ⟨slot, pointed, rfl⟩ := Option.map_eq_some_iff.mp calls.current
  exact coherent.table.process?_of_current pointed

theorem Coherent.crash_iff_of_heapFree (coherent : exec.Coherent)
    (calls : exec.Calls frame process .heapFree) (readings : Readings) :
    .crash ∈ (exec.handleSynchronous frame readings).effects ↔
      ¬ exec.memory.Starts (frame.context.argument 0).toNat ∧
        exec.memory.windowBase ≤ (frame.context.argument 0).toNat ∧
          maxWord < exec.memory.windowStop := by
  rw [(coherent.judges frame readings).judged.crash_iff]
  constructor
  · rintro ⟨other, call, others, oversteps⟩
    obtain ⟨rfl, rfl⟩ := calls.unique others
    cases oversteps with
    | heapFree heap spent above high =>
        exact ⟨Allocator.find?_eq_none_iff.mp spent, above, high⟩
  · rintro ⟨nobody, above, high⟩
    obtain ⟨slot, stack⟩ :=
      coherent.exists_stack (coherent.found_of_calls calls)
    refine ⟨process, .heapFree, calls, .heapFree (fun own => ?_)
      (Allocator.find?_eq_none_iff.mpr nobody) above high⟩
    exact nobody ⟨slot, _, stack, own.symm⟩

theorem Coherent.givesBack (coherent : exec.Coherent)
    (calls : exec.Calls frame process .heapFree) (readings : Readings) :
    ∃ status, exec.GivesBack frame process (frame.context.argument 0).toNat
      (exec.handleSynchronous frame readings) status := by
  have current := coherent.found_of_calls calls
  have found := coherent.process?_capture calls.current frame.context
  have memory := (coherent.untouched_capture frame.context).memory
  have released := released_heapRelease found
    (frame.context.argument 0).toNat
  have heapBase? := heapBase?_heapRelease found
    (frame.context.argument 0).toNat
  generalize outcome : (exec.capture frame.context).heapRelease process.id
    (frame.context.argument 0).toNat = release at released heapBase?
  obtain ⟨remaining, effects, status⟩ := release
  dsimp only at released heapBase?
  rw [memory, Process.stackBase_withContext] at released
  have served : exec.service frame readings process .heapFree =
      Service.resume remaining effects (UInt64.ofInt status.value) := by
    change (exec.capture frame.context).heapFree _ _ = _
    rw [heapFree, outcome]
  have returns : exec.Returns frame readings process .heapFree
      (UInt64.ofInt status.value) :=
    coherent.returns calls (congrArg Service.flow served)
  have left : (exec.handleSynchronous frame readings).exec =
      remaining.setResult process.id (UInt64.ofInt status.value) := by
    rw [returns.exec_eq, served]
    rfl
  have owes := released.owes coherent.memory
  refine ⟨status, returns.fatal, returns.frame_eq, fun other => ?_,
    coherent.crash_iff_of_heapFree calls readings,
    fun ok slot region holds starts => ?_, fun failed => ?_, fun id => ?_⟩
  · constructor
    · rintro rfl
      exact owes
    · exact coherent.owes_unique current owes
  · subst ok
    rw [left]
    exact released.vacates coherent.memory holds starts
  · rw [left]
    exact released.kept failed
  · have rewrites := rewrites_setResult remaining process.id
      (UInt64.ofInt status.value)
    rw [left, rewrites.heapBase?, heapBase?, coherent.heapBase?_capture]
    rfl

/-- Until something is handed out there again, whoever tries to give back what
starts at the address hears that it has been given back. -/
def Spent (exec : Executive) (base : UInt64) : Prop :=
  ∀ later, Avoids (fun exec => exec.Allots base.toNat) exec later →
    ∀ id frame readings,
      (exec.run later).Frees id base.toNat
          (.trap ⟨.synchronous, frame, readings⟩) →
        let trap := (exec.run later).handleSynchronous frame readings
        trap.reply = UInt64.ofInt SyscallStatus.alreadyReleased.value ∧
          (trap.Completes ↔ exec.memory.windowStop ≤ maxWord)

/-- As long as the process lives and has not tried yet, it can give back what
starts at the address, once. -/
def Redeemable (exec : Executive) (id : ProcessId) (base : UInt64) : Prop :=
  ∀ later, exec.LivesThrough id later →
    Avoids (fun exec => exec.Frees id base.toNat) exec later →
      ∀ frame readings,
        (exec.run later).Frees id base.toNat
            (.trap ⟨.synchronous, frame, readings⟩) →
          let trap := (exec.run later).handleSynchronous frame readings
          trap.Completes ∧ trap.reply = 0 ∧ trap.exec.Spent base

theorem GivesBack.reply_eq {trap : Trap}
    (gives : exec.GivesBack frame process base trap status) :
    trap.reply = UInt64.ofInt status.value :=
  Trap.reply_of_frame gives.frame_eq

theorem Coherent.spent (coherent : exec.Coherent) {base : UInt64}
    (nobody : ¬ exec.memory.Starts base.toNat)
    (inside : exec.memory.inWindow base.toNat = true)
    (aligned : base.toNat % pageSize = 0) : exec.Spent base := by
  intro later avoids id frame readings frees
  have window := coherent.window_run later
  cases frees with
  | call _ _ process calls _ address =>
      have quiet := coherent.not_starts_run nobody avoids
      have here : (exec.run later).memory.inWindow base.toNat = true :=
        (Allocator.inWindow_congr window).trans inside
      obtain ⟨status, gives⟩ :=
        (coherent.run later).givesBack calls readings
      rw [address] at gives
      obtain rfl :=
        (gives.status_iff .alreadyReleased).mpr (.spent quiet here aligned)
      rw [Allocator.inWindow, Bool.and_eq_true, decide_eq_true_eq] at here
      refine ⟨gives.reply_eq, ?_⟩
      rw [Trap.Completes, and_iff_right gives.fatal, gives.crash_iff,
        and_iff_right quiet, and_iff_right here.1,
        Allocator.windowStop_congr window, Nat.not_lt]

/-- A call that returns an address has had a region handed out there. -/
theorem Coherent.granted_of_reply (coherent : exec.Coherent)
    (calls : exec.Calls frame process .heapAlloc)
    (completes : (exec.handleSynchronous frame readings).Completes)
    (given : (exec.handleSynchronous frame readings).reply ≠ 0) :
    ∃ placement, exec.memory.Fits placement ∧
      (exec.handleSynchronous frame readings).exec.memory =
        (exec.memory.grant placement process.id).memory ∧
      (exec.handleSynchronous frame readings).reply.toNat =
        (exec.memory.grant placement process.id).region.base := by
  cases coherent.provides calls readings with
  | refused cause refuses kept replied => exact absurd replied given
  | granted grant grants left replied low =>
      obtain ⟨placement, fits, rfl⟩ := Allocator.allocate_eq_ok grants
      refine ⟨placement, fits, left, ?_⟩
      rw [replied]
      exact toNat_ofNat_of_le_maxWord (low completes.2)

theorem Coherent.redeems (coherent : exec.Coherent)
    (calls : exec.Calls frame process .heapFree) {slot : Fin 128}
    {region : Region} (holds : exec.memory.Holds slot region)
    (starts : region.base = (frame.context.argument 0).toNat)
    (owned : region.owner = process.id)
    (heap : region.base ≠ process.stackBase) (readings : Readings) :
    (exec.handleSynchronous frame readings).Completes ∧
      (exec.handleSynchronous frame readings).reply = 0 ∧
      (exec.handleSynchronous frame readings).exec.Spent
        (frame.context.argument 0) := by
  obtain ⟨status, gives⟩ := coherent.givesBack calls readings
  rw [← starts] at gives
  obtain rfl : status = .ok :=
    (gives.status_iff .ok).mpr (.ok slot region heap holds rfl owned)
  have vacates := gives.vacates rfl slot region holds rfl
  have nobody := coherent.memory.not_starts_of_vacates holds vacates
  obtain ⟨inside, aligned⟩ := coherent.memory.base_of_holds holds
  rw [← Allocator.inWindow_congr vacates.window] at inside
  refine ⟨⟨gives.fatal, fun crash => ?_⟩, gives.reply_eq, ?_⟩
  · exact (gives.crash_iff.mp crash).1 ⟨slot, region, holds, rfl⟩
  · rw [starts] at nobody inside aligned
    have after := coherent.step (.trap ⟨.synchronous, frame, readings⟩)
    exact after.spent nobody inside aligned

theorem Coherent.redeemable (coherent : exec.Coherent)
    (calls : exec.Calls frame process .heapAlloc)
    (completes : (exec.handleSynchronous frame readings).Completes)
    (given : (exec.handleSynchronous frame readings).reply ≠ 0) :
    (exec.handleSynchronous frame readings).exec.Redeemable process.id
      (exec.handleSynchronous frame readings).reply := by
  have current := coherent.found_of_calls calls
  obtain ⟨placement, fits, memory, reply⟩ :=
    coherent.granted_of_reply calls completes given
  obtain ⟨stackSlot, stack⟩ := coherent.exists_stack current
  have heap : (exec.memory.grant placement process.id).region.base ≠
      process.stackBase := coherent.memory.base_granted_ne fits stack
  have granted := Allocator.holds_granted exec.memory placement process.id
  rw [← memory] at granted
  intro later lives avoids laterFrame laterReadings frees
  have after := coherent.step (.trap ⟨.synchronous, frame, readings⟩)
  rw [reply] at avoids
  have holds := after.holds_run granted lives avoids
  -- The stack is where it was: the process has lived on since the first call.
  have live : exec.table.process? process.id ≠ none := by
    rw [current]
    exact Option.some_ne_none process
  have livesOn : exec.LivesThrough process.id
      (.trap ⟨.synchronous, frame, readings⟩ :: later) := ⟨live, lives⟩
  have tenure := coherent.tenure?_run livesOn
  rw [ProcessTable.tenure?_of_process? current] at tenure
  cases frees with
  | call _ _ caller laterCalls same address =>
      have found := (after.run later).found_of_calls laterCalls
      rw [run_cons, ← same, ProcessTable.tenure?_of_process? found] at tenure
      have stackBase : caller.stackBase = process.stackBase :=
        congrArg Tenure.base (Option.some.inj tenure)
      rw [← UInt64.toNat_inj.mp address]
      rw [← stackBase] at heap
      exact (after.run later).redeems laterCalls holds
        (reply.symm.trans address.symm) same.symm heap laterReadings

/-- In every reachable state a call for giving back what starts at an address
is answered as it should be, whatever the address.  What a process has been
given for its heap, it can give back once. -/
theorem regions_given_back (config : Configuration) (events : List Event) :
    let exec := (boot config).run events
    (∀ frame readings process, exec.Calls frame process .heapFree →
      ∃ status, exec.GivesBack frame process (frame.context.argument 0).toNat
        (exec.handleSynchronous frame readings) status) ∧
    ∀ frame readings process, exec.Calls frame process .heapAlloc →
      let trap := exec.handleSynchronous frame readings
      trap.Completes → trap.reply ≠ 0 →
        trap.exec.Redeemable process.id trap.reply := by
  intro exec
  have coherent : exec.Coherent := (coherent_boot config).run events
  exact ⟨fun frame readings process calls =>
      coherent.givesBack calls readings,
    fun frame readings process calls completes given =>
      coherent.redeemable calls completes given⟩

/-! Two processes.  The first one takes a page and gives it back, and in between
the second one tries to. -/

namespace SharedWindow

def config : Configuration where
  memoryBase := 0x48000000
  memorySize := 4 * pageSize
  lines := InterruptLines.unassigned
  idle := Context.zero
  exitLink := 0

def events : List Event :=
  [.spawn 0x1000 pageSize .user "owner", .spawn 0x2000 pageSize .user "other",
    .start]

def calling (call : Syscall) (argument : UInt64) : Frame where
  context := Context.zero.setArguments [argument]
  syndrome := Syndrome.ofCall call.number
  faultAddress := 0

def devices : Readings where
  pending := none
  now := 0
  keys := []
  screenSize := (0, 0)
  charSize := TextScale.cell
  memory := UserMemory.zeroed 0x48000000 0x4000

def release : Frame := calling .heapFree 0x48002000

def attempt : List Event :=
  [.trap ⟨.synchronous, calling .yield 0, devices⟩,
    .trap ⟨.synchronous, release, devices⟩,
    .trap ⟨.synchronous, calling .yield 0, devices⟩]

end SharedWindow

theorem not_frees_of_named
    (other : frame.syndrome.immediate ≠ Syscall.heapFree.number) :
    ¬ exec.Frees id base (.trap ⟨.synchronous, frame, readings⟩) := by
  rintro ⟨_, _, process, calls⟩
  exact other calls.named

theorem not_frees_of_running (other : ProcessId)
    (running : exec.table.currentId? = some other) (different : other ≠ id) :
    ¬ exec.Frees id base (.trap ⟨.synchronous, frame, readings⟩) := by
  rintro ⟨_, _, process, calls, rfl⟩
  exact different
    (Option.some.inj (running.symm.trans calls.currentId?_eq))

theorem not_allots_of_named
    (other : frame.syndrome.immediate ≠ Syscall.heapAlloc.number) :
    ¬ exec.Allots base (.trap ⟨.synchronous, frame, readings⟩) := by
  rintro (⟨_, _, process, grant, calls⟩ | _)
  exact other calls.named

open SharedWindow in
theorem region_given_back_once :
    let exec := (boot config).run events
    let granting := exec.handleSynchronous (calling .heapAlloc 0x1000) devices
    let freeing :=
      (granting.exec.run attempt).handleSynchronous release devices
    let repeating :=
      (freeing.exec.run attempt).handleSynchronous release devices
    granting.Completes ∧ granting.reply = 0x48002000 ∧
      freeing.Completes ∧ freeing.reply = 0 ∧
      repeating.Completes ∧ repeating.reply = UInt64.ofInt (-5) := by
  intro exec granting freeing repeating
  have current : exec.table.currentProcess? =
      some exec.table.slots[(0 : Fin 16)] := by decide +kernel
  have calls : exec.Calls (calling .heapAlloc 0x1000) _ .heapAlloc :=
    ⟨current, by decide, by decide⟩
  have completes : granting.Completes := ⟨by decide +kernel, by decide +kernel⟩
  have reply : granting.reply = 0x48002000 := by decide +kernel
  have given : granting.reply ≠ 0 := by
    rw [reply]
    decide
  have redeemable : granting.exec.Redeemable _ granting.reply :=
    (regions_given_back config events).2 _ devices _ calls completes given
  rw [reply] at redeemable
  have frees : (granting.exec.run attempt).Frees
      exec.table.slots[(0 : Fin 16)].id 0x48002000
      (.trap ⟨.synchronous, release, devices⟩) :=
    .call _ _ (granting.exec.run attempt).table.slots[(0 : Fin 16)]
      ⟨by decide +kernel, by decide, by decide⟩ (by decide +kernel) (by decide)
  obtain ⟨freed, ok, spent⟩ := redeemable attempt (by decide +kernel)
    ⟨not_frees_of_named (by decide),
      not_frees_of_running ⟨2⟩ (by decide +kernel) (by decide +kernel),
      not_frees_of_named (by decide), trivial⟩ release devices frees
  have again : (freeing.exec.run attempt).Frees ⟨1⟩ 0x48002000
      (.trap ⟨.synchronous, release, devices⟩) :=
    .call _ _ (freeing.exec.run attempt).table.slots[(0 : Fin 16)]
      ⟨by decide +kernel, by decide, by decide⟩ (by decide +kernel) (by decide)
  obtain ⟨told, returns⟩ := spent attempt
    ⟨not_allots_of_named (by decide), not_allots_of_named (by decide),
      not_allots_of_named (by decide), trivial⟩ _ release devices again
  exact ⟨completes, reply, freed, ok, returns.mpr (by decide +kernel), told⟩

open WindowAtTheTop in
/-- Where the window ends with the addresses, it is the second attempt that asks
for its end. -/
theorem second_release_crashes_at_the_top :
    let exec := (boot config).run events
    let granting := exec.handleSynchronous
      (SharedWindow.calling .heapAlloc 0x1000) devices
    let freeing := granting.exec.handleSynchronous release devices
    granting.Completes ∧ granting.reply = release.context.argument 0 ∧
      freeing.Completes ∧ freeing.reply = 0 ∧
      .crash ∈ (freeing.exec.handleSynchronous release devices).effects := by
  refine ⟨⟨?_, ?_⟩, ?_, ⟨?_, ?_⟩, ?_, ?_⟩ <;> decide +kernel

end Executive

end Nucleus
