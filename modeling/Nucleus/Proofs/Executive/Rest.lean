import Nucleus.Proofs.Executive.Commands
import Nucleus.Proofs.Executive.Traps
import Nucleus.Proofs.Process.Dormitory
import Nucleus.Proofs.Process.Sleeping

/-!
What lets sleepers sleep.  Scheduling, input, memory, drawing, and the
beginnings of processes leave the deadline queue as it is, block nobody and
wake nobody, and give the sleep comparator no command.
-/

namespace Nucleus

def Effect.isComparator : Effect → Bool
  | .armSleep _ | .disarmSleep => true
  | _ => false

def comparatorCommands (effects : List Effect) : List Effect :=
  effects.filter Effect.isComparator

@[simp] theorem comparatorCommands_append (first second : List Effect) :
    comparatorCommands (first ++ second) =
      comparatorCommands first ++ comparatorCommands second :=
  List.filter_append first second

theorem comparatorCommands_cons {effect : Effect}
    (other : effect.isComparator = false) (rest : List Effect) :
    comparatorCommands (effect :: rest) = comparatorCommands rest := by
  simp [comparatorCommands, other]

theorem comparatorCommands_commands (effects : List Effect) :
    comparatorCommands (commands effects) = comparatorCommands effects :=
  filter_commands (fun _ => rfl) effects

theorem silent_of_commands {effects : List Effect}
    (quiet : commands effects = []) : comparatorCommands effects = [] := by
  rw [← comparatorCommands_commands, quiet]
  rfl

@[simp] theorem comparatorCommands_crashIf (overflow : Bool) :
    comparatorCommands (Effect.crashIf overflow) = [] := by
  cases overflow <;> rfl

namespace Executive

def dormitory (exec : Executive) : Dormitory where
  queue := exec.sleepers
  asleep := {id | exec.table.Sleeps id}

structure Rests (before after : Executive) (effects : List Effect) :
    Prop where
  dormitory : after.dormitory = before.dormitory
  silent : comparatorCommands effects = []

variable {exec before middle after : Executive}
  {effects earlierEffects laterEffects : List Effect} {caller : ProcessId}

theorem Rests.refl (exec : Executive)
    (silent : comparatorCommands effects = []) : Rests exec exec effects :=
  ⟨rfl, silent⟩

theorem Rests.trans (earlier : Rests before middle earlierEffects)
    (later : Rests middle after laterEffects) :
    Rests before after (earlierEffects ++ laterEffects) := by
  refine ⟨later.dormitory.trans earlier.dormitory, ?_⟩
  rw [comparatorCommands_append, earlier.silent, later.silent,
    List.append_nil]

theorem Rests.cons (rests : Rests before after effects) {effect : Effect}
    (other : effect.isComparator = false) :
    Rests before after (effect :: effects) := by
  refine ⟨rests.dormitory, ?_⟩
  rw [comparatorCommands_cons other, rests.silent]

theorem Rests.of_sleeps
    (sleeps : ∀ id, after.table.Sleeps id ↔ before.table.Sleeps id)
    (sleepers : after.sleepers = before.sleepers)
    (silent : comparatorCommands effects = []) :
    Rests before after effects := by
  refine ⟨?_, silent⟩
  rw [Executive.dormitory, Executive.dormitory, sleepers]
  exact congrArg _ (Set.ext sleeps)

theorem Rests.of_amends
    (amends : ProcessTable.Amends after.table before.table)
    (sleepers : after.sleepers = before.sleepers)
    (silent : comparatorCommands effects = []) :
    Rests before after effects :=
  Rests.of_sleeps amends.sleeps sleepers silent

theorem rests_reschedule (exec : Executive) :
    Rests exec exec.reschedule.1 exec.reschedule.2.2 :=
  Rests.of_sleeps (ProcessTable.sleeps_advance exec.table) rfl
    (silent_of_commands (commands_reschedule exec))

theorem rests_start (exec : Executive) :
    Rests exec exec.start.1 exec.start.2 :=
  (rests_reschedule exec).trans (Rests.refl _ rfl)

theorem rests_deliver (exec : Executive) (event : KeyEvent) :
    Rests exec (exec.deliver event).1 (exec.deliver event).2 := by
  refine Rests.of_amends (amends_deliver exec event) ?_
    (silent_of_commands (commands_deliver exec event))
  rcases deliver_cases exec event with same | ⟨_, _, same⟩ <;> rw [same]

theorem rests_deliverAll (exec : Executive) (events : List KeyEvent) :
    Rests exec (exec.deliverAll events).1 (exec.deliverAll events).2 := by
  induction events generalizing exec with
  | nil => exact Rests.refl exec rfl
  | cons event rest ih => exact (rests_deliver exec event).trans (ih _)

theorem rests_focus {id : ProcessId} (focused : exec.focus id = .ok after) :
    Rests exec after [] := by
  obtain ⟨slot, _, rfl⟩ := focus_eq_ok focused
  exact Rests.of_sleeps (ProcessTable.sleeps_focusOn slot) rfl rfl

theorem Coherent.rests_spawn (coherent : exec.Coherent) (entry : UInt64)
    (stackSize : Nat) (mode : ProcessMode) (name : String) :
    Rests exec (exec.spawn entry stackSize mode name).exec
      (exec.spawn entry stackSize mode name).effects := by
  refine Rests.of_sleeps (coherent.table.sleeps_create exec.memory _) rfl ?_
  unfold spawn
  dsimp only
  rw [comparatorCommands_append, comparatorCommands_crashIf]
  split <;> rfl

theorem Coherent.rests_capture (coherent : exec.Coherent)
    (context : Context) : Rests exec (exec.capture context) [] := by
  rcases coherent.capture_cases context with
    ⟨_, same⟩ | ⟨holder, table, _, same, rewrites⟩
  · rw [same]
    exact ⟨rfl, rfl⟩
  · rw [same]
    exact Rests.of_amends rewrites.amends rfl rfl

theorem router_capture (exec : Executive) (context : Context) :
    (exec.capture context).router = exec.router := by
  unfold capture
  split <;> rfl

theorem rests_settle (exec : Executive) (caller : ProcessId) (flow : Flow) :
    Rests exec (exec.settle caller flow).1 (exec.settle caller flow).2 := by
  have answered : ∀ value, Rests exec (exec.setResult caller value) [] :=
    fun value => Rests.of_amends (rewrites_setResult exec caller value).amends
      rfl rfl
  cases flow with
  | resume value => exact answered value
  | giveWay value | block value =>
      exact (answered value).trans (rests_reschedule _)
  | exit => exact Rests.refl exec rfl

theorem rests_heapAlloc (exec : Executive) (caller : ProcessId)
    (size : Nat) :
    Rests exec (exec.heapAlloc caller size).exec
      (exec.heapAlloc caller size).effects := by
  unfold heapAlloc
  split
  · exact Rests.refl exec rfl
  · rename_i grant _
    exact Rests.of_amends
      (amends_rebase exec.table caller fun process =>
        process.adoptHeap_eq grant.region.base)
      rfl (comparatorCommands_crashIf _)

theorem rests_heapFree (exec : Executive) (caller : ProcessId)
    (base : Nat) :
    Rests exec (exec.heapFree caller base).exec
      (exec.heapFree caller base).effects := by
  have released : Rests exec (exec.heapRelease caller base).1
      (exec.heapRelease caller base).2.1 := by
    unfold heapRelease
    split
    · exact Rests.refl exec rfl
    · split
      · exact Rests.refl exec rfl
      · dsimp only
        split
        · exact Rests.refl exec (comparatorCommands_crashIf _)
        · exact Rests.of_amends
            (amends_rebase exec.table caller fun process =>
              process.dropHeap_eq base)
            rfl (comparatorCommands_crashIf _)
  exact released

theorem comparatorCommands_printFrom (memory : UserMemory)
    (address length : Nat) :
    comparatorCommands (printFrom memory address length).1 = [] := by
  fun_induction printFrom memory address length with
  | case1 | case2 | case4 => rfl
  | case3 address length _ _ bytes _ writes complete rest ih =>
      rw [comparatorCommands_cons rfl]
      rwa [rest] at ih

theorem rests_print (exec : Executive) (memory : UserMemory)
    (address length : Nat) :
    Rests exec (exec.print memory address length).exec
      (exec.print memory address length).effects := by
  have silent := comparatorCommands_printFrom memory address length
  unfold print
  split
  · exact Rests.refl exec rfl
  · dsimp only
    split <;> exact Rests.refl exec silent

theorem rests_readInput (exec : Executive) (caller : ProcessId)
    (memory : UserMemory) (address : Nat) :
    Rests exec (exec.readInput caller memory address).exec
      (exec.readInput caller memory address).effects := by
  unfold readInput
  split
  · exact Rests.refl exec rfl
  · split
    · exact Rests.refl exec rfl
    · rename_i input _
      have amends : ProcessTable.Amends
          (exec.table.updateProcess caller fun process =>
            { process with input := input }) exec.table :=
        ProcessTable.amends_updateProcess (fun _ => rfl) (fun _ => rfl)
          (fun _ => rfl)
      dsimp only
      split <;> exact Rests.of_amends amends rfl rfl

theorem rests_drawText (exec : Executive) (memory : UserMemory)
    (corner : Point) (address length scale : Nat) (colour : UInt32) :
    Rests exec
      (exec.drawText memory corner address length scale colour).exec
      (exec.drawText memory corner address length scale colour).effects := by
  have reports : comparatorCommands
      (if min length longestText < length then
        [Journal.textTruncated length (min length longestText)]
      else []) = [] := by split <;> rfl
  unfold drawText
  dsimp only
  split
  · exact Rests.refl exec reports
  · split
    · exact Rests.refl exec reports
    · refine Rests.refl exec ?_
      rw [Service.resume, comparatorCommands_append, reports]
      rfl

theorem rests_perform (exec : Executive) (readings : Readings)
    (caller : ProcessId) (context : Context) {call : Syscall}
    (brief : call = .sleep → (context.argument 0).toNat = 0)
    (stays : call ≠ .stop) :
    Rests exec (exec.perform readings caller context call).exec
      (exec.perform readings caller context call).effects := by
  cases call with
  | heapAlloc => exact rests_heapAlloc exec caller _
  | heapFree => exact rests_heapFree exec caller _
  | print => exact rests_print exec _ _ _
  | readInput => exact rests_readInput exec caller _ _
  | drawString => exact rests_drawText exec _ _ _ _ _ _
  | sleep =>
      rw [perform, sleep, if_pos (brief rfl)]
      exact Rests.refl exec rfl
  | stop => exact absurd rfl stays
  | clear | drawPixel | drawLine | fillRect | drawChar | screenSize
  | charSize | yield | uptime => exact Rests.refl exec rfl

theorem rests_serve (exec : Executive) (readings : Readings)
    (caller : ProcessId) (context : Context) {number : UInt16}
    (brief : number = Syscall.sleep.number →
      (context.argument 0).toNat = 0)
    (stays : number ≠ Syscall.stop.number) :
    Rests exec (exec.serve readings caller context number).exec
      (exec.serve readings caller context number).effects := by
  unfold serve
  cases found : Syscall.ofNumber? number with
  | none => exact Rests.refl exec rfl
  | some call =>
      have same := Syscall.number_of_ofNumber? found
      refine (rests_perform exec readings caller context ?_ ?_).cons rfl
      · rintro rfl
        exact brief same.symm
      · rintro rfl
        exact stays same.symm

theorem serve_number (exec : Executive) (readings : Readings)
    (caller : ProcessId) (context : Context) (call : Syscall) :
    exec.serve readings caller context call.number =
      { exec.perform readings caller context call with
        effects := Journal.called caller call context ::
          (exec.perform readings caller context call).effects } := by
  rw [serve, Syscall.ofNumber?_number]

end Executive

end Nucleus
