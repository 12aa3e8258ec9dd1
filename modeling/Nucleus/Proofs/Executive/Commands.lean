import Nucleus.Executive.Trap

/-!
What the devices are told.  A report goes into the journal and nowhere else;
every other effect is a command to some device.  Scheduling, the delivery of
input and the end of a process command nothing.
-/

namespace Nucleus

def Effect.isReport : Effect → Bool
  | .report _ => true
  | _ => false

/-- The effects that a device carries out, in order. -/
def commands (effects : List Effect) : List Effect :=
  effects.filter fun effect => !effect.isReport

section Commands

variable {effects : List Effect}

@[simp] theorem commands_append (first second : List Effect) :
    commands (first ++ second) = commands first ++ commands second :=
  List.filter_append first second

theorem commands_commands (effects : List Effect) :
    commands (commands effects) = commands effects := by
  simp [commands]

theorem commands_cons {effect : Effect} (command : effect.isReport = false)
    (rest : List Effect) :
    commands (effect :: rest) = effect :: commands rest := by
  simp [commands, command]

theorem commands_eq_nil_iff :
    commands effects = [] ↔ ∀ effect ∈ effects, effect.isReport = true := by
  simp [commands, List.filter_eq_nil_iff]

theorem commands_map {α : Type} {spell : α → Effect}
    (reports : ∀ item, (spell item).isReport = true) (items : List α) :
    commands (items.map spell) = [] := by
  simp [commands_eq_nil_iff, reports]

theorem mem_commands_iff {effect : Effect}
    (command : effect.isReport = false) :
    effect ∈ commands effects ↔ effect ∈ effects := by
  simp [commands, command]

theorem filter_commands {accepts : Effect → Bool}
    (blind : ∀ record, accepts (.report record) = false)
    (effects : List Effect) :
    (commands effects).filter accepts = effects.filter accepts := by
  rw [commands, List.filter_filter]
  apply List.filter_congr
  intro effect _
  cases effect <;> simp [Effect.isReport, blind]

end Commands

def DeadlineQueue.command (queue : DeadlineQueue) : Effect :=
  match queue.next? with
  | some deadline => .armSleep deadline
  | none => .disarmSleep

namespace Executive

variable {exec after : Executive} {id : ProcessId}

theorem commands_reschedule (exec : Executive) :
    commands exec.reschedule.2.2 = [] := by
  unfold reschedule
  dsimp only
  split
  · exact commands_map (fun _ => rfl) _
  · rfl
  · split <;> rfl

theorem commands_deliver (exec : Executive) (event : KeyEvent) :
    commands (exec.deliver event).2 = [] := by
  unfold deliver
  cases exec.table.deliver? event with
  | none => rfl
  | some delivery =>
      dsimp only
      split <;> rfl

theorem commands_deliverAll (exec : Executive) (events : List KeyEvent) :
    commands (exec.deliverAll events).2 = [] := by
  induction events generalizing exec with
  | nil => rfl
  | cons event rest ih =>
      rw [deliverAll, commands_append, commands_deliver, ih, List.append_nil]

theorem commands_wakeSleepers (exec : Executive) (now : Nat) :
    commands (exec.wakeSleepers now).2.2 =
      [(exec.wakeSleepers now).1.sleepers.command] := by
  unfold wakeSleepers DeadlineQueue.command
  dsimp only
  rw [commands_append, commands_map fun _ => rfl]
  cases (exec.sleepers.drainExpired now).2.next? <;> rfl

theorem commands_terminate {effects : List Effect}
    (ended : exec.terminate id = .ok (after, effects)) :
    commands effects = [] := by
  unfold terminate at ended
  split at ended
  · cases ended
  · dsimp only at ended
    split at ended
    · obtain ⟨_, rfl⟩ := Prod.mk.inj (Except.ok.inj ended)
      rw [commands_append, commands_append, commands_reschedule]
      rfl
    · obtain ⟨_, rfl⟩ := Prod.mk.inj (Except.ok.inj ended)
      rfl

theorem commands_settle (exec : Executive) (caller : ProcessId)
    (flow : Flow) : commands (exec.settle caller flow).2 = [] := by
  cases flow with
  | resume value | exit => rfl
  | giveWay value | block value => exact commands_reschedule _

end Executive

end Nucleus
