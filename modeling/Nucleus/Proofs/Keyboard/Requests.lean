import Nucleus.Proofs.Keyboard.Fifo

namespace Nucleus

/-- What can be asked for unread events. -/
inductive KeyRequest
  | push (event : KeyEvent)
  | pop
  deriving DecidableEq, Repr

inductive KeyAnswer
  /-- An unread event may have been lost to the new one. -/
  | pushed (lost : Bool)
  | popped (event : Option KeyEvent)
  deriving DecidableEq, Repr

def KeyRequest.serveAll {State : Type}
    (serve : State → KeyRequest → State × KeyAnswer) (state : State) :
    List KeyRequest → State × List KeyAnswer
  | [] => (state, [])
  | request :: rest =>
      let (after, answer) := serve state request
      let (final, answers) := serveAll serve after rest
      (final, answer :: answers)

abbrev KeyQueue := List KeyEvent

/-- The rules: no more than 32 events are kept, and the oldest gives way. -/
def KeyQueue.serve (queue : KeyQueue) : KeyRequest → KeyQueue × KeyAnswer
  | .push event =>
      if queue.length = 32 then (queue.tail ++ [event], .pushed true)
      else (queue ++ [event], .pushed false)
  | .pop => (queue.tail, .popped queue.head?)

namespace KeyRing

variable {ring : KeyRing}

def serve (ring : KeyRing) : KeyRequest → KeyRing × KeyAnswer
  | .push event => ((ring.push event).1, .pushed (ring.push event).2)
  | .pop =>
      match ring.pop? with
      | some (event, rest) => (rest, .popped (some event))
      | none => (ring, .popped none)

theorem push_lost (ring : KeyRing) (event : KeyEvent) :
    (ring.push event).2 = decide (ring.length = capacity) := by
  unfold push
  split
  · rename_i full
    rw [decide_eq_true full]
  · rename_i room
    rw [decide_eq_false room]

theorem Sound.serve (sound : ring.Sound) (request : KeyRequest) :
    (ring.serve request).1.Sound ∧
      KeyQueue.serve ring.toList request =
        ((ring.serve request).1.toList, (ring.serve request).2) := by
  cases request with
  | push event =>
      refine ⟨sound.push event, ?_⟩
      rw [KeyRing.serve, sound.toList_push, push_lost, KeyQueue.serve,
        enqueue, length_toList, capacity]
      by_cases full : ring.length = 32
      · rw [if_pos full, if_pos full, decide_eq_true full]
      · rw [if_neg full, if_neg full, decide_eq_false full]
  | pop =>
      rw [KeyRing.serve, KeyQueue.serve]
      cases popped : ring.pop? with
      | none =>
          have nothing := pop?_eq_none_iff.mp popped
          refine ⟨sound, ?_⟩
          rw [nothing]
          rfl
      | some taken =>
          obtain ⟨event, rest⟩ := taken
          obtain ⟨content, restSound⟩ := sound.pop?_eq_some popped
          refine ⟨restSound, ?_⟩
          rw [content]
          rfl

theorem Sound.serveAll (sound : ring.Sound) (requests : List KeyRequest) :
    (KeyRequest.serveAll KeyRing.serve ring requests).1.Sound ∧
      KeyRequest.serveAll KeyQueue.serve ring.toList requests =
        ((KeyRequest.serveAll KeyRing.serve ring requests).1.toList,
          (KeyRequest.serveAll KeyRing.serve ring requests).2) := by
  induction requests generalizing ring with
  | nil => exact ⟨sound, rfl⟩
  | cons request rest ih =>
      obtain ⟨afterSound, first⟩ := sound.serve request
      obtain ⟨finalSound, later⟩ := ih afterSound
      refine ⟨finalSound, ?_⟩
      rw [KeyRequest.serveAll, first]
      dsimp only
      rw [later]
      rfl

/-- Whatever a new ring is asked, in whatever order, it answers as a queue of
at most 32 events does, and stands where the queue says. -/
theorem ring_keeps_queue (requests : List KeyRequest) :
    let queue := KeyRequest.serveAll KeyQueue.serve [] requests
    let ring := KeyRequest.serveAll KeyRing.serve empty requests
    ring.2 = queue.2 ∧
      ring.1.toList = queue.1 ∧
      ring.1.length = queue.1.length ∧
      queue.1.length ≤ 32 ∧
      ring.1.reader < 32 ∧
      ring.1.writer = (ring.1.reader + ring.1.length) % 32 := by
  intro queue ring
  obtain ⟨sound, same⟩ := sound_empty.serveAll requests
  rw [toList_empty] at same
  have answers : ring.2 = queue.2 := congrArg Prod.snd same.symm
  have content : ring.1.toList = queue.1 := congrArg Prod.fst same.symm
  have length : ring.1.length = queue.1.length := by
    rw [← content, length_toList]
  refine ⟨answers, content, length, ?_, sound.reader_lt, sound.writer_eq⟩
  rw [← length]
  exact sound.length_le

end KeyRing

end Nucleus
