import Nucleus.Keyboard.Ring

/-!
The ring as a queue.  In a sound ring the writer stands right behind the unread
events; then a push appends to them, at the cost of the oldest when the ring is
full, and a pop takes the oldest.
-/

namespace Nucleus

namespace KeyRing

structure Sound (ring : KeyRing) : Prop where
  reader_lt : ring.reader < capacity
  length_le : ring.length ≤ capacity
  writer_eq : ring.writer = (ring.reader + ring.length) % capacity

theorem sound_empty : empty.Sound :=
  ⟨by decide, by decide, rfl⟩

/-- A queue that holds no more events than a ring takes one more. -/
def enqueue (queue : List KeyEvent) (event : KeyEvent) : List KeyEvent :=
  (if queue.length = capacity then queue.tail else queue) ++ [event]

def entry (slots : Vector KeyEvent 32) (first offset : Nat) : KeyEvent :=
  slots[(first + offset) % capacity]?.getD KeyEvent.empty

def stretch (slots : Vector KeyEvent 32) (first count : Nat) :
    List KeyEvent :=
  (List.range count).map (entry slots first)

theorem toList_eq_stretch (ring : KeyRing) :
    ring.toList = stretch ring.slots ring.reader ring.length := rfl

variable {slots : Vector KeyEvent 32} {first : Nat} {ring : KeyRing}
  {event : KeyEvent}

theorem entry_succ (slots : Vector KeyEvent 32) (first offset : Nat) :
    entry slots ((first + 1) % capacity) offset =
      entry slots first (offset + 1) := by
  have same : ((first + 1) % capacity + offset) % capacity =
      (first + (offset + 1)) % capacity := by
    rw [Nat.mod_add_mod, Nat.add_assoc, Nat.add_comm 1]
  rw [entry, entry, same]

theorem stretch_cons (slots : Vector KeyEvent 32) (first count : Nat) :
    stretch slots first (count + 1) =
      entry slots first 0 ::
        stretch slots ((first + 1) % capacity) count := by
  rw [stretch, List.range_succ_eq_map, List.map_cons, List.map_map, stretch]
  exact congrArg _ (List.map_congr_left fun offset _ =>
    (entry_succ slots first offset).symm)

theorem stretch_concat (slots : Vector KeyEvent 32) (first count : Nat) :
    stretch slots first (count + 1) =
      stretch slots first count ++ [entry slots first count] := by
  rw [stretch, List.range_succ, List.map_append]
  rfl

theorem entry_write {place offset : Nat} (placed : place < capacity)
    (inside : offset < capacity) :
    entry (slots.setIfInBounds ((first + place) % capacity) event) first
        offset =
      if offset = place then event else entry slots first offset := by
  unfold entry capacity at *
  rw [Vector.getElem?_setIfInBounds]
  by_cases here : offset = place
  · rw [if_pos here, here, if_pos rfl, if_pos (Nat.mod_lt _ (by decide))]
    rfl
  · rw [if_neg here, if_neg (by omega)]

theorem stretch_write (count : Nat) (room : count < capacity) :
    stretch (slots.setIfInBounds ((first + count) % capacity) event) first
        (count + 1) =
      stretch slots first count ++ [event] := by
  rw [stretch_concat, entry_write room room, if_pos rfl]
  refine congrArg (· ++ [event]) (List.map_congr_left fun offset member => ?_)
  have before : offset < count := List.mem_range.mp member
  rw [entry_write room (Nat.lt_trans before room),
    if_neg (Nat.ne_of_lt before)]

theorem Sound.toList_push (sound : ring.Sound) (event : KeyEvent) :
    (ring.push event).1.toList = enqueue ring.toList event := by
  have writer := sound.writer_eq
  rw [enqueue, length_toList, toList_eq_stretch, toList_eq_stretch]
  unfold push
  split
  · -- The event takes the slot of the oldest one, behind the other 31.
    rename_i full
    have last : ring.writer =
        ((ring.reader + 1) % capacity + 31) % capacity := by
      rw [writer, full, Nat.mod_add_mod, Nat.add_assoc]
      rfl
    dsimp only
    rw [full, last, capacity, stretch_cons ring.slots]
    exact stretch_write 31 (by decide)
  · rename_i partly
    have room := Nat.lt_of_le_of_ne sound.length_le partly
    dsimp only
    rw [writer]
    exact stretch_write _ room

theorem Sound.push (sound : ring.Sound) (event : KeyEvent) :
    (ring.push event).1.Sound := by
  have reader := sound.reader_lt
  have length := sound.length_le
  have writer := sound.writer_eq
  unfold KeyRing.push
  unfold capacity at *
  split
  · constructor <;> dsimp only [capacity] <;> omega
  · constructor <;> dsimp only [capacity] <;> omega

theorem pop?_eq_none_iff : ring.pop? = none ↔ ring.toList = [] := by
  simp [pop?, ← List.length_eq_zero_iff]

theorem Sound.pop?_eq_some (sound : ring.Sound) {rest : KeyRing}
    (popped : ring.pop? = some (event, rest)) :
    ring.toList = event :: rest.toList ∧ rest.Sound := by
  have reader := sound.reader_lt
  have length := sound.length_le
  have writer := sound.writer_eq
  unfold pop? at popped
  split at popped
  · cases popped
  · rename_i some
    obtain ⟨rfl, rfl⟩ := Prod.mk.inj (Option.some.inj popped)
    obtain ⟨count, counted⟩ := Nat.exists_eq_succ_of_ne_zero some
    constructor
    · rw [toList_eq_stretch, counted, stretch_cons, entry, Nat.add_zero,
        Nat.mod_eq_of_lt reader, toList_eq_stretch]
      rfl
    · unfold capacity at *
      constructor <;> dsimp only [capacity] <;> omega

theorem Sound.pop?_of_cons (sound : ring.Sound) {rest : List KeyEvent}
    (content : ring.toList = event :: rest) :
    ∃ popped, ring.pop? = some (event, popped) := by
  cases taken : ring.pop? with
  | none =>
      rw [pop?_eq_none_iff.mp taken] at content
      cases content
  | some outcome =>
      obtain ⟨oldest, popped⟩ := outcome
      rw [(sound.pop?_eq_some taken).1] at content
      exact ⟨popped, by rw [List.head_eq_of_cons_eq content]⟩

end KeyRing

end Nucleus
