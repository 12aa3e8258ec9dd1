import Mathlib.Data.Set.Card
import Mathlib.Order.Bounds.Defs
import Nucleus.Proofs.Process.Agenda

namespace Nucleus

inductive WakeRequest
  | insert (id : ProcessId) (deadline : Nat)
  | remove (id : ProcessId)
  | next
  | pop (now : Nat)
  /-- Everybody who is due. -/
  | drain (now : Nat)
  /-- Those who are due, but no more than a number of them. -/
  | take (now limit : Nat)
  deriving DecidableEq, Repr

inductive WakeAnswer
  | inserted
  | full
  | removed (found : Bool)
  | next (deadline : Option Nat)
  | popped (sleeper : Option Sleeper)
  | woken (ids : List ProcessId)
  deriving DecidableEq, Repr

namespace DeadlineQueue

/-- A refused entry has already taken the place of the earlier one. -/
def serve (queue : DeadlineQueue) :
    WakeRequest → DeadlineQueue × WakeAnswer
  | .insert id deadline =>
      match queue.insert? id deadline with
      | some inserted => (inserted, .inserted)
      | none => (queue.erase id, .full)
  | .remove id => (queue.erase id, .removed (queue.contains id))
  | .next => (queue, .next queue.next?)
  | .pop now =>
      match queue.popExpired? now with
      | some (sleeper, rest) => (rest, .popped (some sleeper))
      | none => (queue, .popped none)
  | .drain now =>
      ((queue.drainExpired now).2, .woken (queue.drainExpired now).1)
  | .take now limit =>
      ((queue.takeExpired now limit).2,
        .woken (queue.takeExpired now limit).1)

def serveAll (queue : DeadlineQueue) :
    List WakeRequest → DeadlineQueue × List WakeAnswer
  | [] => (queue, [])
  | request :: rest =>
      let (after, answer) := queue.serve request
      let (final, answers) := after.serveAll rest
      (final, answer :: answers)

end DeadlineQueue

/-- When each process is to be woken. -/
abbrev Timetable := ProcessId → Option Nat

namespace Timetable

def empty : Timetable := fun _ => none

def queued (table : Timetable) : Set ProcessId :=
  {id | table id ≠ none}

def without (table : Timetable) (ids : List ProcessId) : Timetable :=
  fun id => if id ∈ ids then none else table id

/-- Nobody is to be woken before the sleeper. -/
def Front (table : Timetable) (first : Sleeper) : Prop :=
  table first.id = some first.deadline ∧
    ∀ id deadline, table id = some deadline → first.NotAfter ⟨deadline, id⟩

/-- Exactly those who are due, each one strictly before the next. -/
structure Due (table : Timetable) (now : Nat) (due : List Sleeper) :
    Prop where
  sorted : due.Pairwise fun first second => first.isBefore second = true
  mem_iff : ∀ sleeper, sleeper ∈ due ↔
    table sleeper.id = some sleeper.deadline ∧ sleeper.deadline ≤ now

inductive Serves (table : Timetable) :
    WakeRequest → WakeAnswer → Timetable → Prop
  | inserted (id : ProcessId) (deadline : Nat)
      (room : (table.queued \ {id}).ncard ≠ DeadlineQueue.capacity) :
      Serves table (.insert id deadline) .inserted
        (Function.update table id (some deadline))
  | full (id : ProcessId) (deadline : Nat)
      (crowded : (table.queued \ {id}).ncard = DeadlineQueue.capacity) :
      Serves table (.insert id deadline) .full table
  | removed (id : ProcessId) :
      Serves table (.remove id) (.removed (table id).isSome)
        (Function.update table id none)
  | next (earliest : Nat)
      (least : IsLeast {deadline | ∃ id, table id = some deadline} earliest) :
      Serves table .next (.next (some earliest)) table
  | nobody (empty : table = Timetable.empty) :
      Serves table .next (.next none) table
  | popped (now : Nat) (first : Sleeper) (front : table.Front first)
      (due : first.deadline ≤ now) :
      Serves table (.pop now) (.popped (some first))
        (Function.update table first.id none)
  | late (now : Nat)
      (late : ∀ first, table.Front first → now < first.deadline) :
      Serves table (.pop now) (.popped none) table
  | drained (now : Nat) (due : List Sleeper) (all : table.Due now due) :
      Serves table (.drain now) (.woken (due.map (·.id)))
        (table.without (due.map (·.id)))
  | taken (now limit : Nat) (due : List Sleeper) (all : table.Due now due) :
      Serves table (.take now limit) (.woken ((due.take limit).map (·.id)))
        (table.without ((due.take limit).map (·.id)))

inductive ServesAll : Timetable → List WakeRequest → List WakeAnswer →
    Timetable → Prop
  | nil (table : Timetable) : ServesAll table [] [] table
  | cons {table after final : Timetable} {request : WakeRequest}
      {answer : WakeAnswer} {rest : List WakeRequest}
      {answers : List WakeAnswer}
      (first : table.Serves request answer after)
      (later : ServesAll after rest answers final) :
      ServesAll table (request :: rest) (answer :: answers) final

end Timetable

theorem Sleeper.isBefore_of_notAfter {first second : Sleeper}
    (notAfter : first.NotAfter second) (apart : first.id ≠ second.id) :
    first.isBefore second = true := by
  have other : first.id.raw ≠ second.id.raw :=
    fun same => apart (congrArg ProcessId.mk same)
  simp only [isBefore, Bool.or_eq_true, decide_eq_true_eq, Bool.and_eq_true,
    beq_iff_eq]
  exact (notAfter_iff.mp notAfter).imp_right fun tied =>
    ⟨tied.1, UInt16.lt_of_le_of_ne tied.2 other⟩

namespace DeadlineQueue

variable {queue after : DeadlineQueue} {id : ProcessId} {now : Nat}

theorem Sound.ncard_queued (sound : queue.Sound) :
    (Timetable.queued queue.deadline?).ncard = queue.length := by
  have members : Timetable.queued queue.deadline? =
      (queue.ids.toFinset : Set ProcessId) := by
    ext id
    rw [Timetable.queued, Set.mem_ofPred_eq, ne_eq, deadline?_eq_none_iff,
      not_not, Finset.mem_coe, List.mem_toFinset]
  rw [members, Set.ncard_coe_finset,
    List.toFinset_card_of_nodup sound.distinct, ids, List.length_map]
  rfl

theorem Sound.ncard_others (sound : queue.Sound) (id : ProcessId) :
    (Timetable.queued queue.deadline? \ {id}).ncard =
      (queue.erase id).length := by
  rw [← (sound.erase id).ncard_queued]
  congr 1
  ext other
  simp only [Timetable.queued, Set.mem_sdiff, Set.mem_ofPred_eq,
    Set.mem_singleton_iff, sound.deadline?_erase]
  by_cases here : other = id <;> simp [here]

theorem contains_iff : queue.contains id = true ↔ id ∈ queue.ids := by
  rw [contains, Array.any_eq_true', ids, toList, List.mem_map]
  simp only [Array.mem_toList_iff, beq_iff_eq]

theorem contains_eq (queue : DeadlineQueue) (id : ProcessId) :
    queue.contains id = (queue.deadline? id).isSome := by
  rw [Bool.eq_iff_iff, contains_iff, Option.isSome_iff_ne_none, ne_eq,
    deadline?_eq_none_iff, not_not]

theorem Sound.deadline?_erase_eq (sound : queue.Sound) (id : ProcessId) :
    (queue.erase id).deadline? = Function.update queue.deadline? id none := by
  funext other
  rw [sound.deadline?_erase, Function.update_apply]

theorem Sound.deadline?_eq_none_of_full (sound : queue.Sound)
    (full : (queue.erase id).length = capacity) :
    queue.deadline? id = none := by
  rw [deadline?_eq_none_iff]
  intro member
  have shorter : (queue.erase id).length < queue.length := by
    refine (erase_perm sound.distinct id).length_eq.trans_lt ?_
    obtain ⟨sleeper, held, named⟩ := List.mem_map.mp member
    exact List.length_filter_lt_length_iff_exists.mpr
      ⟨sleeper, held, by simpa using named⟩
  have small := sound.small
  omega

theorem Sound.front (sound : queue.Sound) {first : Sleeper}
    (found : queue.entries[0]? = some first) :
    Timetable.Front queue.deadline? first := by
  refine ⟨?_, fun id deadline waits => ?_⟩
  · rw [deadline?_eq_some_iff sound.distinct]
    exact Array.mem_toList_iff.mpr (Array.mem_of_getElem? found)
  · exact sound.front_notAfter found (mem_of_deadline? waits)

theorem Sound.isLeast_next (sound : queue.Sound) {earliest : Nat}
    (front : queue.next? = some earliest) :
    IsLeast {deadline | ∃ id, queue.deadline? id = some deadline}
      earliest := by
  refine ⟨?_, ?_⟩
  · rw [next?, Option.map_eq_some_iff] at front
    obtain ⟨first, found, rfl⟩ := front
    exact ⟨first.id, (sound.front found).1⟩
  · rintro deadline ⟨id, waits⟩
    exact sound.next?_le front waits

theorem popExpired?_eq_some {first : Sleeper}
    (popped : queue.popExpired? now = some (first, after)) :
    queue.entries[0]? = some first := by
  unfold popExpired? at popped
  split at popped
  · rename_i front found
    split at popped
    · rw [found, (Prod.mk.inj (Option.some.inj popped)).1]
    · cases popped
  · cases popped

theorem Sound.deadline?_popExpired? (sound : queue.Sound) {first : Sleeper}
    (popped : queue.popExpired? now = some (first, after)) :
    after.deadline? = Function.update queue.deadline? first.id none := by
  have perm := (popExpired?_perm popped).2
  have ids := (perm.map Sleeper.id).nodup_iff.mp sound.distinct
  have gone : first.id ∉ after.ids := (List.nodup_cons.mp ids).1
  funext other
  apply (sound.popExpired? popped).deadline?_eq
  intro deadline
  rw [Function.update_apply]
  split
  · rename_i here
    subst here
    have absent : ⟨deadline, first.id⟩ ∉ after.toList :=
      fun member => gone (List.mem_map.mpr ⟨_, member, rfl⟩)
    exact iff_of_false absent (Option.some_ne_none deadline).symm
  · rename_i away
    rw [deadline?_eq_some_iff sound.distinct, perm.mem_iff, List.mem_cons,
      or_iff_right]
    rintro rfl
    exact away rfl

theorem Sound.due_nil (sound : queue.Sound)
    (late : queue.popExpired? now = none) :
    Timetable.Due queue.deadline? now [] := by
  refine ⟨.nil, fun sleeper => iff_of_false List.not_mem_nil ?_⟩
  rintro ⟨waits, due⟩
  have early := sound.lt_of_popExpired? late (mem_of_deadline? waits)
  exact absurd due (Nat.not_le.mpr early)

theorem Sound.due_cons (sound : queue.Sound) {first : Sleeper}
    (popped : queue.popExpired? now = some (first, after))
    {rest : List Sleeper} (others : Timetable.Due after.deadline? now rest) :
    Timetable.Due queue.deadline? now (first :: rest) := by
  have front := sound.front (popExpired?_eq_some popped)
  have left := sound.deadline?_popExpired? popped
  have mem_rest : ∀ sleeper, sleeper ∈ rest ↔ sleeper.id ≠ first.id ∧
      queue.deadline? sleeper.id = some sleeper.deadline ∧
        sleeper.deadline ≤ now := by
    intro sleeper
    rw [others.mem_iff, left, Function.update_apply]
    by_cases here : sleeper.id = first.id <;> simp [here]
  constructor
  · refine List.pairwise_cons.mpr ⟨fun sleeper member => ?_, others.sorted⟩
    obtain ⟨away, waits, _⟩ := (mem_rest sleeper).mp member
    exact Sleeper.isBefore_of_notAfter (front.2 _ _ waits) away.symm
  · intro sleeper
    rw [List.mem_cons, mem_rest]
    constructor
    · rintro (rfl | ⟨_, waits, due⟩)
      · exact ⟨front.1, (popExpired?_perm popped).1⟩
      · exact ⟨waits, due⟩
    · rintro ⟨waits, due⟩
      by_cases here : sleeper.id = first.id
      · left
        rw [here, front.1] at waits
        cases sleeper
        cases first
        simp_all
      · exact .inr ⟨here, waits, due⟩

theorem Sound.exists_due (sound : queue.Sound) (now : Nat) :
    ∃ due, Timetable.Due queue.deadline? now due ∧ ∀ limit,
      (queue.takeExpired now limit).2.Sound ∧
      (queue.takeExpired now limit).1 = (due.take limit).map (·.id) ∧
      (queue.takeExpired now limit).2.deadline? =
        Timetable.without queue.deadline?
          ((due.take limit).map (·.id)) := by
  -- Whoever is taken leaves a shorter queue with the others who are due.
  induction shrinks : queue.length using Nat.strong_induction_on
    generalizing queue with
  | h length ih =>
      cases popped : queue.popExpired? now with
      | none =>
          refine ⟨[], sound.due_nil popped, fun limit => ?_⟩
          have nobody : queue.takeExpired now limit = ([], queue) := by
            cases limit with
            | zero => rfl
            | succ limit => rw [DeadlineQueue.takeExpired, popped]
          rw [nobody, List.take_nil]
          exact ⟨sound, rfl, rfl⟩
      | some outcome =>
          obtain ⟨first, after⟩ := outcome
          have perm := (popExpired?_perm popped).2
          have shorter : queue.length = after.length + 1 := perm.length_eq
          obtain ⟨rest, due, taken⟩ := ih after.length (by omega)
            (sound.popExpired? popped) rfl
          refine ⟨first :: rest, sound.due_cons popped due, fun limit => ?_⟩
          cases limit with
          | zero => exact ⟨sound, rfl, rfl⟩
          | succ limit =>
              obtain ⟨leftSound, ids, left⟩ := taken limit
              rw [DeadlineQueue.takeExpired, popped]
              refine ⟨leftSound, congrArg (first.id :: ·) ids, ?_⟩
              dsimp only
              rw [left, sound.deadline?_popExpired? popped]
              funext id
              simp only [Timetable.without, Function.update_apply,
                List.take_succ_cons, List.map_cons, List.mem_cons]
              by_cases here : id = first.id <;> simp [here]

theorem length_due_le {due : List Sleeper}
    (all : Timetable.Due queue.deadline? now due) :
    due.length ≤ queue.length := by
  have distinct : due.Nodup := by
    refine all.sorted.imp fun {first second} before => ?_
    rintro rfl
    rw [Sleeper.not_isBefore_self] at before
    cases before
  have held : due ⊆ queue.toList := fun sleeper member =>
    mem_of_deadline? ((all.mem_iff sleeper).mp member).1
  exact (List.subperm_of_subset distinct held).length_le

theorem Sound.serves (sound : queue.Sound) (request : WakeRequest) :
    (queue.serve request).1.Sound ∧
      Timetable.Serves queue.deadline? request (queue.serve request).2
        (queue.serve request).1.deadline? := by
  cases request with
  | insert id deadline =>
      cases inserted : queue.insert? id deadline with
      | none =>
          have full := insert?_eq_none_iff.mp inserted
          have absent := sound.deadline?_eq_none_of_full full
          simp only [serve, inserted]
          refine ⟨sound.erase id, ?_⟩
          rw [sound.deadline?_erase_eq, ← absent, Function.update_eq_self]
          exact .full id deadline ((sound.ncard_others id).trans full)
      | some after =>
          have room : (queue.erase id).length ≠ capacity := by
            rw [ne_eq, ← insert?_eq_none_iff, inserted]
            exact Option.some_ne_none after
          have same : after.deadline? =
              Function.update queue.deadline? id (some deadline) := by
            funext other
            rw [sound.deadline?_insert inserted, Function.update_apply]
          simp only [serve, inserted]
          rw [same]
          rw [← sound.ncard_others] at room
          exact ⟨sound.insert inserted, .inserted id deadline room⟩
  | remove id =>
      rw [serve, contains_eq, sound.deadline?_erase_eq]
      exact ⟨sound.erase id, .removed id⟩
  | next =>
      refine ⟨sound, ?_⟩
      rw [serve]
      cases front : queue.next? with
      | some earliest => exact .next earliest (sound.isLeast_next front)
      | none =>
          refine .nobody (funext fun id => ?_)
          rw [deadline?, next?_eq_none_iff.mp front]
          rfl
  | pop now =>
      cases popped : queue.popExpired? now with
      | none =>
          simp only [serve, popped]
          refine ⟨sound, .late now fun first front => ?_⟩
          exact sound.lt_of_popExpired? popped (mem_of_deadline? front.1)
      | some outcome =>
          obtain ⟨first, after⟩ := outcome
          simp only [serve, popped]
          rw [sound.deadline?_popExpired? popped]
          exact ⟨sound.popExpired? popped, .popped now first
            (sound.front (popExpired?_eq_some popped))
            (popExpired?_perm popped).1⟩
  | drain now =>
      obtain ⟨due, all, taken⟩ := sound.exists_due now
      obtain ⟨leftSound, ids, left⟩ := taken queue.length
      rw [List.take_of_length_le (length_due_le all)] at ids left
      refine ⟨leftSound, ?_⟩
      rw [serve, DeadlineQueue.drainExpired, ids, left]
      exact .drained now due all
  | take now limit =>
      obtain ⟨due, all, taken⟩ := sound.exists_due now
      obtain ⟨leftSound, ids, left⟩ := taken limit
      refine ⟨leftSound, ?_⟩
      rw [serve, ids, left]
      exact .taken now limit due all

theorem Sound.servesAll (sound : queue.Sound) (requests : List WakeRequest) :
    (queue.serveAll requests).1.Sound ∧
      Timetable.ServesAll queue.deadline? requests
        (queue.serveAll requests).2
        (queue.serveAll requests).1.deadline? := by
  induction requests generalizing queue with
  | nil => exact ⟨sound, .nil _⟩
  | cons request rest ih =>
      obtain ⟨afterSound, first⟩ := sound.serves request
      obtain ⟨finalSound, later⟩ := ih afterSound
      exact ⟨finalSound, .cons first later⟩

/-- Whatever a new queue is asked, in whatever order, it answers as a timetable
does, and never holds more entries than there are process slots. -/
theorem timetable_served (requests : List WakeRequest) :
    Timetable.ServesAll Timetable.empty requests
        (empty.serveAll requests).2 (empty.serveAll requests).1.deadline? ∧
      (Timetable.queued (empty.serveAll requests).1.deadline?).ncard ≤
        capacity := by
  obtain ⟨sound, serves⟩ := sound_empty.servesAll requests
  refine ⟨serves, ?_⟩
  rw [sound.ncard_queued]
  exact sound.small

end DeadlineQueue

end Nucleus
