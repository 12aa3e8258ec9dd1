import Nucleus.Proofs.Keyboard.Fifo
import Nucleus.Proofs.Process.Estate

/-!
Inboxes.  What the processes have yet to read is a queue for each of them, and
one of them may hold the focus.  The table keeps these queues in its rings: each
of its operations does to them what it is meant to do, and most do nothing.
-/

namespace Nucleus

/-- What can happen to the input of the processes. -/
inductive Happening
  | began (id : ProcessId)
  | ended (id : ProcessId)
  | focused (id : ProcessId)
  | typed (key : KeyEvent)
  | read (id : ProcessId)
  deriving DecidableEq, Repr

/-- Who holds the focus, and what everybody has yet to read. -/
@[ext]
structure Inboxes where
  focus : Option ProcessId
  inbox? : ProcessId → Option (List KeyEvent)

namespace Inboxes

def empty : Inboxes :=
  ⟨none, fun _ => none⟩

def modify (inboxes : Inboxes) (id : ProcessId)
    (change : List KeyEvent → List KeyEvent) : Inboxes :=
  { inboxes with inbox? := fun other =>
      if other = id then (inboxes.inbox? id).map change
      else inboxes.inbox? other }

def after (inboxes : Inboxes) : Happening → Inboxes
  | .began id =>
      { inboxes with inbox? := fun other =>
          if other = id then some [] else inboxes.inbox? other }
  | .ended id =>
      ⟨inboxes.focus.filter (· ≠ id), fun other =>
        if other = id then none else inboxes.inbox? other⟩
  | .focused id =>
      { inboxes with focus :=
          if (inboxes.inbox? id).isSome then some id else inboxes.focus }
  | .typed key =>
      match inboxes.focus with
      | some id => inboxes.modify id (KeyRing.enqueue · key)
      | none => inboxes
  | .read id => inboxes.modify id List.tail

def afterAll (inboxes : Inboxes) (happenings : List Happening) : Inboxes :=
  happenings.foldl after inboxes

@[simp] theorem afterAll_nil (inboxes : Inboxes) :
    inboxes.afterAll [] = inboxes := rfl

@[simp] theorem afterAll_cons (inboxes : Inboxes) (first : Happening)
    (rest : List Happening) :
    inboxes.afterAll (first :: rest) = (inboxes.after first).afterAll rest :=
  rfl

theorem afterAll_append (inboxes : Inboxes)
    (earlier later : List Happening) :
    inboxes.afterAll (earlier ++ later) =
      (inboxes.afterAll earlier).afterAll later :=
  List.foldl_append

end Inboxes

namespace ProcessTable

variable {table after middle before : ProcessTable} {id : ProcessId}

def inboxes (table : ProcessTable) : Inboxes where
  focus := table.focusedId?
  inbox? id := (table.process? id).map fun process => process.input.toList

def RingsSound (table : ProcessTable) : Prop :=
  ∀ slot : Fin 16, table.slots[slot].input.Sound

/-- The inboxes go along with what has happened, and stay sound. -/
structure Posts (happenings : List Happening) (before after : ProcessTable) :
    Prop where
  inboxes : after.inboxes = before.inboxes.afterAll happenings
  rings : after.RingsSound

theorem Posts.trans {earlier later : List Happening}
    (first : Posts earlier before middle) (second : Posts later middle after) :
    Posts (earlier ++ later) before after := by
  refine ⟨?_, second.rings⟩
  rw [second.inboxes, first.inboxes, Inboxes.afterAll_append]

theorem WellFormed.focusedSlot?_eq_some_iff (wellFormed : table.WellFormed)
    {slot : Fin 16} :
    table.focusedSlot? = some slot ↔ table.slots[slot].focused = true := by
  constructor
  · intro found
    have accepted := Slots.accepts_of_first? found
    rw [Bool.and_eq_true] at accepted
    exact accepted.2
  · intro focused
    have live := wellFormed.focus_live focused
    cases found : table.focusedSlot? with
    | none =>
        have refused := Slots.first?_eq_none_iff.mp found slot
        rw [live, focused] at refused
        cases refused
    | some other =>
        have accepted := Slots.accepts_of_first? found
        rw [Bool.and_eq_true] at accepted
        rw [wellFormed.focus_unique other slot accepted.2 focused]

theorem WellFormed.focusedId?_eq_some_iff (wellFormed : table.WellFormed) :
    table.focusedId? = some id ↔ ∃ slot : Fin 16,
      table.slots[slot].focused = true ∧ table.slots[slot].id = id := by
  rw [focusedId?, Option.map_eq_some_iff]
  constructor
  · rintro ⟨slot, found, named⟩
    exact ⟨slot, wellFormed.focusedSlot?_eq_some_iff.mp found, named⟩
  · rintro ⟨slot, focused, named⟩
    exact ⟨slot, wellFormed.focusedSlot?_eq_some_iff.mpr focused, named⟩

theorem focusedId?_congr
    (sameLive : ∀ slot : Fin 16,
      after.slots[slot].isLive = before.slots[slot].isLive)
    (sameId : ∀ slot : Fin 16, after.slots[slot].id = before.slots[slot].id)
    (sameFocus : ∀ slot : Fin 16,
      after.slots[slot].focused = before.slots[slot].focused) :
    after.focusedId? = before.focusedId? := by
  unfold focusedId? focusedSlot? Slots.first?
  simp only [sameLive, sameId, sameFocus]

theorem inbox?_congr
    (sameLive : ∀ slot : Fin 16,
      after.slots[slot].isLive = before.slots[slot].isLive)
    (sameId : ∀ slot : Fin 16, after.slots[slot].id = before.slots[slot].id)
    (sameInput : ∀ slot : Fin 16,
      after.slots[slot].input = before.slots[slot].input) :
    after.inboxes.inbox? = before.inboxes.inbox? := by
  funext id
  apply map_process?_congr sameLive sameId
  intro slot
  exact congrArg KeyRing.toList (sameInput slot)

theorem inbox?_of_slotOf?_eq_none (missing : table.slotOf? id = none) :
    table.inboxes.inbox? id = none := by
  dsimp only [inboxes, process?]
  rw [missing]
  rfl

structure Retains (after before : ProcessTable) : Prop where
  isLive : ∀ slot : Fin 16,
    after.slots[slot].isLive = before.slots[slot].isLive
  id : ∀ slot : Fin 16, after.slots[slot].id = before.slots[slot].id
  focused : ∀ slot : Fin 16,
    after.slots[slot].focused = before.slots[slot].focused
  input : ∀ slot : Fin 16, after.slots[slot].input = before.slots[slot].input

theorem Retains.refl (table : ProcessTable) : Retains table table :=
  ⟨fun _ => rfl, fun _ => rfl, fun _ => rfl, fun _ => rfl⟩

theorem Retains.trans (later : Retains after middle)
    (earlier : Retains middle before) : Retains after before where
  isLive slot := (later.isLive slot).trans (earlier.isLive slot)
  id slot := (later.id slot).trans (earlier.id slot)
  focused slot := (later.focused slot).trans (earlier.focused slot)
  input slot := (later.input slot).trans (earlier.input slot)

theorem Restates.retains (restates : Restates after before) :
    Retains after before := by
  refine ⟨restates.isLive, restates.id, fun slot => ?_, fun slot => ?_⟩
  · obtain ⟨state, content⟩ := restates.content slot
    rw [content]
  · obtain ⟨state, content⟩ := restates.content slot
    rw [content]

theorem Amends.retains (amends : Amends after before)
    (input : ∀ slot : Fin 16,
      after.slots[slot].input = before.slots[slot].input) :
    Retains after before :=
  ⟨amends.isLive, amends.id, amends.focused, input⟩

theorem input_updateProcess {change : Process → Process}
    (sameInput : ∀ process, (change process).input = process.input)
    (other : Fin 16) :
    (table.updateProcess id change).slots[other].input =
      table.slots[other].input := by
  unfold updateProcess
  cases table.slotOf? id with
  | none => rfl
  | some slot => exact view_update sameInput other

theorem Retains.inboxes (retains : Retains after before) :
    after.inboxes = before.inboxes :=
  Inboxes.ext (focusedId?_congr retains.isLive retains.id retains.focused)
    (inbox?_congr retains.isLive retains.id retains.input)

theorem Retains.posts (retains : Retains after before)
    (rings : before.RingsSound) : Posts [] before after := by
  refine ⟨retains.inboxes, fun slot => ?_⟩
  rw [retains.input slot]
  exact rings slot

theorem Posts.followed {happenings : List Happening}
    (posts : Posts happenings before middle)
    (retains : Retains after middle) : Posts happenings before after := by
  have last := retains.posts posts.rings
  exact ⟨last.inboxes.trans posts.inboxes, last.rings⟩

section Input

variable {input : KeyRing} {change : List KeyEvent → List KeyEvent}

def setInput (table : ProcessTable) (id : ProcessId) (input : KeyRing) :
    ProcessTable :=
  table.updateProcess id fun process => { process with input := input }

theorem amends_setInput (table : ProcessTable) (id : ProcessId)
    (input : KeyRing) : Amends (table.setInput id input) table :=
  amends_updateProcess (fun _ => rfl) (fun _ => rfl) (fun _ => rfl)

theorem process?_setInput (table : ProcessTable) (id : ProcessId)
    (input : KeyRing) (other : ProcessId) :
    (table.setInput id input).process? other =
      if other = id then (table.process? id).map fun process =>
        { process with input := input }
      else table.process? other := by
  apply process?_updateProcess
  · exact fun _ => rfl
  · exact fun _ live => live

theorem inboxes_setInput (changes : ∀ process,
      table.process? id = some process →
        input.toList = change process.input.toList) :
    (table.setInput id input).inboxes = table.inboxes.modify id change := by
  have amends := amends_setInput table id input
  apply Inboxes.ext
  · exact focusedId?_congr amends.isLive amends.id amends.focused
  · funext other
    dsimp only [inboxes, Inboxes.modify]
    rw [process?_setInput]
    split
    · cases holder : table.process? id with
      | none => rfl
      | some process => exact congrArg some (changes process holder)
    · rfl

theorem RingsSound.setInput (rings : table.RingsSound)
    (sound : input.Sound) : (table.setInput id input).RingsSound := by
  intro slot
  unfold ProcessTable.setInput updateProcess
  split
  · rw [slots_update]
    split
    · exact sound
    · exact rings slot
  · exact rings slot

end Input

theorem posts_deliver?_of_none (rings : table.RingsSound) {event : KeyEvent}
    (dropped : table.deliver? event = none) :
    Posts [.typed event] table table := by
  refine ⟨?_, rings⟩
  have nobody : table.inboxes.focus = none := by
    rw [deliver?, Option.map_eq_none_iff] at dropped
    dsimp only [inboxes]
    rw [focusedId?, dropped]
    rfl
  rw [Inboxes.afterAll_cons, Inboxes.after, nobody]
  rfl

theorem WellFormed.posts_deliver? (wellFormed : table.WellFormed)
    (rings : table.RingsSound) {event : KeyEvent} {delivery : Delivery}
    (delivered : table.deliver? event = some delivery) :
    Posts [.typed event] table delivery.table := by
  rw [deliver?, Option.map_eq_some_iff] at delivered
  obtain ⟨slot, found, rfl⟩ := delivered
  have focused := wellFormed.focusedSlot?_eq_some_iff.mp found
  have live := wellFormed.focus_live focused
  have holder : table.inboxes.focus = some table.slots[slot].id := by
    dsimp only [inboxes]
    rw [focusedId?, found]
    rfl
  have updated : (table.update slot fun process =>
      { process with input := (table.slots[slot].input.push event).1 }) =
        table.setInput table.slots[slot].id
          (table.slots[slot].input.push event).1 := by
    rw [setInput, updateProcess, wellFormed.slotOf?_of_live live]
  dsimp only
  rw [updated]
  refine ⟨?_, rings.setInput ((rings slot).push event)⟩
  rw [Inboxes.afterAll_cons, Inboxes.after, holder]
  refine inboxes_setInput fun process same => ?_
  rw [wellFormed.process?_of_live live] at same
  rw [← Option.some.inj same]
  exact (rings slot).toList_push event

theorem posts_read (rings : table.RingsSound) {process : Process}
    (found : table.process? id = some process) {event : KeyEvent}
    {rest : KeyRing} (popped : process.input.pop? = some (event, rest)) :
    Posts [.read id] table (table.setInput id rest) := by
  obtain ⟨slot, _, rfl⟩ := process?_eq_some found
  obtain ⟨content, sound⟩ := (rings slot).pop?_eq_some popped
  refine ⟨inboxes_setInput fun process same => ?_, rings.setInput sound⟩
  rw [← Option.some.inj (found.symm.trans same), content, List.tail_cons]

theorem posts_read_of_nothing (rings : table.RingsSound)
    (nothing : ∀ process, table.process? id = some process →
      process.input.pop? = none) : Posts [.read id] table table := by
  refine ⟨?_, rings⟩
  apply Inboxes.ext
  · rfl
  · funext other
    dsimp only [inboxes, Inboxes.afterAll_cons, Inboxes.afterAll_nil,
      Inboxes.after, Inboxes.modify]
    split
    · rename_i here
      rw [here]
      cases found : table.process? id with
      | none => rfl
      | some process =>
          have content := KeyRing.pop?_eq_none_iff.mp (nothing process found)
          rw [Option.map_some, content]
          rfl
    · rfl

theorem WellFormed.posts_focus (wellFormed : table.WellFormed)
    (rings : table.RingsSound) (focused : table.focus id = .ok after) :
    Posts [.focused id] table after := by
  obtain ⟨slot, found, rfl⟩ := focus_eq_ok focused
  obtain ⟨live, rfl⟩ := live_of_slotOf? found
  have known : (table.inboxes.inbox? table.slots[slot].id).isSome = true := by
    dsimp only [inboxes]
    rw [process?_of_slotOf? found]
    rfl
  constructor
  · rw [Inboxes.afterAll_cons, Inboxes.after, if_pos known]
    apply Inboxes.ext
    · apply (wellFormed.focusOn live).focusedId?_eq_some_iff.mpr
      refine ⟨slot, ?_, ?_⟩
      · rw [slots_focusOn, decide_eq_true rfl]
        rfl
      · rw [slots_focusOn]
        rfl
    · apply inbox?_congr <;> intro other <;> rw [slots_focusOn] <;> rfl
  · intro other
    rw [slots_focusOn]
    exact rings other

theorem focus_eq_error {cause : ProcessError}
    (refused : table.focus id = .error cause) : table.slotOf? id = none := by
  unfold focus at refused
  cases found : table.slotOf? id with
  | none => rfl
  | some slot =>
      rw [found] at refused
      cases refused

theorem posts_focus_of_missing (rings : table.RingsSound)
    (missing : table.slotOf? id = none) :
    Posts [.focused id] table table := by
  refine ⟨?_, rings⟩
  rw [Inboxes.afterAll_cons, Inboxes.after, inbox?_of_slotOf?_eq_none missing]
  rfl

theorem WellFormed.focusedId?_seat {slot : Fin 16} {process : Process}
    {used : Nat} {nextId : UInt16} (wellFormed : table.WellFormed)
    (seated : (table.seat slot process used nextId).WellFormed)
    (vacant : table.slots[slot].isLive = false)
    (unfocused : process.focused = false) :
    (table.seat slot process used nextId).focusedId? = table.focusedId? := by
  ext other
  rw [seated.focusedId?_eq_some_iff, wellFormed.focusedId?_eq_some_iff]
  constructor
  · rintro ⟨place, focused, rfl⟩
    by_cases here : place = slot
    · rw [here, slots_seat_self, unfocused] at focused
      cases focused
    · rw [slots_seat_of_ne here] at focused ⊢
      exact ⟨place, focused, rfl⟩
  · rintro ⟨place, focused, rfl⟩
    have away : place ≠ slot :=
      (ne_of_live vacant (wellFormed.focus_live focused)).symm
    exact ⟨place, by rwa [slots_seat_of_ne away],
      by rw [slots_seat_of_ne away]⟩

theorem WellFormed.posts_create (wellFormed : table.WellFormed)
    (rings : table.RingsSound) (memory : Allocator)
    (request : SpawnRequest) :
    Posts ((table.create memory request).outcome.toOption.toList.map
        fun made => .began made.1)
      table (table.create memory request).table := by
  have after := wellFormed.create memory request
  rcases create_cases table memory request with
    ⟨cause, nextId, same⟩ | ⟨slot, used, placement, found, _, same⟩
  · -- A refusal may use up an identifier, but gives it to nobody.
    rw [same]
    have retains : Retains { table with nextId := nextId } table :=
      ⟨fun _ => rfl, fun _ => rfl, fun _ => rfl, fun _ => rfl⟩
    exact retains.posts rings
  · have created : (table.create memory request).outcome =
        .ok (table.newId, slot) := by rw [same]
    have lookup := wellFormed.process?_create created
    have vacant := (wellFormed.slotForNew?_eq_some found).1
    rw [same] at after lookup ⊢
    rw [slots_seat_self] at lookup
    dsimp only at after lookup ⊢
    constructor
    · apply Inboxes.ext
      · exact wellFormed.focusedId?_seat after vacant rfl
      · funext other
        dsimp only [inboxes]
        rw [lookup]
        by_cases here : other = table.newId
        · rw [if_pos here]
          exact (if_pos here).symm
        · rw [if_neg here]
          exact (if_neg here).symm
    · intro other
      rw [slots_seat]
      split
      · exact KeyRing.sound_empty
      · exact rings other

theorem WellFormed.focusedId?_clearSlot (wellFormed : table.WellFormed)
    (memory : Allocator) {slot : Fin 16}
    (live : table.slots[slot].isLive = true) :
    (table.clearSlot memory slot).table.focusedId? =
      table.focusedId?.filter (· ≠ table.slots[slot].id) := by
  have cleared := wellFormed.clearSlot memory live
  ext other
  rw [cleared.focusedId?_eq_some_iff, Option.filter_eq_some_iff,
    wellFormed.focusedId?_eq_some_iff, decide_eq_true_eq]
  constructor
  · rintro ⟨place, focused, rfl⟩
    have placeLive := cleared.focus_live focused
    obtain ⟨away, same⟩ := slots_clearSlot_of_live placeLive
    rw [same] at focused placeLive ⊢
    exact ⟨⟨place, focused, rfl⟩, fun equal =>
      away (wellFormed.distinct place slot placeLive live equal)⟩
  · rintro ⟨⟨place, focused, rfl⟩, foreign⟩
    have away : place ≠ slot := by
      rintro rfl
      exact foreign rfl
    have same : (table.clearSlot memory slot).table.slots[place] =
        table.slots[place] := by
      rw [slots_clearSlot, if_neg away]
    exact ⟨place, by rwa [same], by rw [same]⟩

theorem WellFormed.posts_clearSlot (wellFormed : table.WellFormed)
    (rings : table.RingsSound) (memory : Allocator) {slot : Fin 16}
    (found : table.slotOf? id = some slot) :
    Posts [.ended id] table (table.clearSlot memory slot).table := by
  obtain ⟨live, rfl⟩ := live_of_slotOf? found
  constructor
  · rw [Inboxes.afterAll_cons, Inboxes.after]
    apply Inboxes.ext
    · exact wellFormed.focusedId?_clearSlot memory live
    · funext other
      dsimp only [Inboxes.afterAll_nil, inboxes]
      rw [wellFormed.process?_clearSlot memory live]
      split
      · rfl
      · rfl
  · intro other
    rw [slots_clearSlot]
    split
    · exact KeyRing.sound_empty
    · exact rings other

theorem WellFormed.posts_ended_of_missing (wellFormed : table.WellFormed)
    (rings : table.RingsSound) (missing : table.slotOf? id = none) :
    Posts [.ended id] table table := by
  have unfocused : ∀ holder, table.focusedId? = some holder →
      holder ≠ id := by
    rintro holder held rfl
    obtain ⟨slot, focused, rfl⟩ :=
      wellFormed.focusedId?_eq_some_iff.mp held
    have found := wellFormed.slotOf?_of_live (wellFormed.focus_live focused)
    rw [missing] at found
    cases found
  refine ⟨?_, rings⟩
  rw [Inboxes.afterAll_cons, Inboxes.after]
  apply Inboxes.ext
  · dsimp only [Inboxes.afterAll_nil, inboxes]
    cases focused : table.focusedId? with
    | none => rfl
    | some holder =>
        rw [Option.filter_some, if_pos (decide_eq_true (unfocused _ focused))]
  · funext other
    dsimp only [Inboxes.afterAll_nil]
    split
    · rename_i here
      rw [here, inbox?_of_slotOf?_eq_none missing]
    · rfl

end ProcessTable

end Nucleus
