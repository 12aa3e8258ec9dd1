import Nucleus.Proofs.Device.Transmission

/-!
Reception.  Draining the port takes every word that waits, in order, each one
right behind a status read that found it; a character that no key types is lost,
and all others come out as keystrokes.  Only when a status read finds nothing
more is the interrupt cleared.
-/

namespace Nucleus

namespace SerialPort

/-- The keystroke that types the character in a word. -/
def keystroke? (word : UInt32) : Option KeyEvent :=
  KeyEvent.ofAscii? word.toUInt8

def dataRead (word : UInt32) : Access :=
  ⟨"", false, dataRegister, word⟩

def interruptClearing : Access :=
  ⟨"", true, interruptClear, receiveInterrupts⟩

inductive Taking : List UInt32 → List Access → Prop
  | done : Taking [] []
  | take {words : List UInt32} {accesses : List Access} (status word : UInt32)
      (waiting : status &&& receiveEmpty = 0)
      (later : Taking words accesses) :
      Taking (word :: words)
        (statusRead status :: dataRead word :: accesses)

variable {port before middle after rest last : SerialPort}
  {words first second : List UInt32} {char : UInt8} {key : KeyEvent}
  {keys : List KeyEvent}

theorem Taking.append {accesses others : List Access}
    (taking : Taking first accesses) (takingOthers : Taking second others) :
    Taking (first ++ second) (accesses ++ others) := by
  induction taking with
  | done => exact takingOthers
  | take status word waiting _ ih => exact .take status word waiting ih

/-- From one state of the port to another these words have been taken. -/
structure Takes (words : List UInt32) (before after : SerialPort) : Prop where
  received : before.received = words ++ after.received
  transmitted : after.transmitted = before.transmitted
  taking : ∃ accesses,
    after.trace.toList = before.trace.toList ++ accesses ∧
      Taking words accesses

theorem Takes.refl (port : SerialPort) : Takes [] port port :=
  ⟨rfl, rfl, [], (List.append_nil _).symm, .done⟩

theorem Takes.trans (earlier : Takes first before middle)
    (later : Takes second middle after) :
    Takes (first ++ second) before after := by
  obtain ⟨accesses, traced, taking⟩ := earlier.taking
  obtain ⟨others, tracedOthers, takingOthers⟩ := later.taking
  refine ⟨?_, later.transmitted.trans earlier.transmitted, accesses ++ others,
    ?_, taking.append takingOthers⟩
  · rw [earlier.received, later.received, List.append_assoc]
  · rw [tracedOthers, traced, List.append_assoc]

theorem empty_of_take (nothing : port.take = (none, rest)) :
    port.received = [] ∧ rest = port.poll := by
  rw [take, receiveEmpty_status] at nothing
  cases waits : port.received with
  | nil =>
      rw [waits] at nothing
      exact ⟨rfl, (Prod.mk.inj nothing).2.symm⟩
  | cons word words =>
      rw [waits] at nothing
      cases nothing

theorem takes_of_take (taken : port.take = (some char, rest)) :
    ∃ word, word.toUInt8 = char ∧ Takes [word] port rest := by
  have found := receiveEmpty_status port
  rw [take, found] at taken
  cases waits : port.received with
  | nil =>
      rw [waits] at taken
      cases taken
  | cons word words =>
      rw [waits] at found taken
      have waiting : port.status &&& receiveEmpty = 0 := by simpa using found
      obtain ⟨low, rfl⟩ := Prod.mk.inj taken
      refine ⟨word, ?_, ?_, rfl, _, ?_, .take port.status word waiting .done⟩
      · simpa [receive, poll, waits] using low
      · simp [poll, waits]
      · simp [poll, waits, statusRead, dataRead]

/-- The queue is empty; a status read shows it, and the interrupt is cleared. -/
structure Clears (before after : SerialPort) : Prop where
  empty : before.received = []
  after_eq : after = before.poll.clearReceive

/-- Words that no key types go by, and then one that some key does. -/
theorem takes_of_nextKey? (found : port.nextKey? = (some key, rest)) :
    ∃ words, Takes words port rest ∧ words.filterMap keystroke? = [key] := by
  fun_induction nextKey? port with
  | case1 port after taken => cases found
  | case2 port char after taken event mapped =>
      obtain ⟨same, rfl⟩ := Prod.mk.inj found
      obtain rfl := Option.some.inj same
      obtain ⟨word, rfl, takes⟩ := takes_of_take taken
      have typed : keystroke? word = some event := mapped
      exact ⟨[word], takes, List.filterMap_cons_some typed⟩
  | case3 port char after taken unmapped ih =>
      obtain ⟨words, later, keys⟩ := ih found
      obtain ⟨word, rfl, takes⟩ := takes_of_take taken
      have untyped : keystroke? word = none := unmapped
      refine ⟨[word] ++ words, takes.trans later, ?_⟩
      rw [List.singleton_append, List.filterMap_cons_none untyped, keys]

theorem clears_of_nextKey? (nothing : port.nextKey? = (none, rest)) :
    ∃ emptied, Takes port.received port emptied ∧
      port.received.filterMap keystroke? = [] ∧ Clears emptied rest := by
  fun_induction nextKey? port with
  | case1 port after taken =>
      obtain ⟨empty, rfl⟩ := empty_of_take taken
      obtain ⟨_, rfl⟩ := Prod.mk.inj nothing
      rw [empty]
      exact ⟨port, Takes.refl port, rfl, empty, rfl⟩
  | case2 port char after taken event mapped => cases nothing
  | case3 port char after taken unmapped ih =>
      obtain ⟨emptied, later, keys, clears⟩ := ih nothing
      obtain ⟨word, rfl, takes⟩ := takes_of_take taken
      have untyped : keystroke? word = none := unmapped
      rw [takes.received]
      refine ⟨emptied, takes.trans later, ?_, clears⟩
      rw [List.singleton_append, List.filterMap_cons_none untyped, keys]

theorem drainKeys_eq (port : SerialPort) :
    port.drainKeys.1 = port.received.filterMap keystroke? ∧
      ∃ emptied, Takes port.received port emptied ∧
        Clears emptied port.drainKeys.2 := by
  fun_induction drainKeys port with
  | case1 port rest nothing =>
      obtain ⟨emptied, takes, keys, clears⟩ := clears_of_nextKey? nothing
      exact ⟨keys.symm, emptied, takes, clears⟩
  | case2 port key rest found keys last drained ih =>
      rw [drained] at ih
      obtain ⟨rfl, emptied, later, clears⟩ := ih
      obtain ⟨words, takes, typed⟩ := takes_of_nextKey? found
      rw [takes.received]
      refine ⟨?_, emptied, takes.trans later, clears⟩
      rw [List.filterMap_append, typed]
      rfl

theorem Taking.filterMap_valueFor? {accesses : List Access}
    (taking : Taking words accesses) (offset : Nat) :
    accesses.filterMap (valueFor? offset) = [] := by
  induction taking with
  | done => rfl
  | take status word waiting _ ih =>
      rw [List.filterMap_cons_none (valueFor?_read rfl offset),
        List.filterMap_cons_none (valueFor?_read rfl offset), ih]

/-- From the first state of the port to the second the receive queue has been
emptied.  The accesses are those that take its words, a status read that finds
no more, and one write, by which the interrupt is cleared. -/
structure Drained (before after : SerialPort) : Prop where
  empty : after.received = []
  transmitted : after.transmitted = before.transmitted
  taking : ∃ accesses status, Taking before.received accesses ∧
    status &&& receiveEmpty ≠ 0 ∧
    after.trace.toList = before.trace.toList ++ accesses ++
      [statusRead status, interruptClearing]
  cleared : after.trace.written "" interruptClear =
    before.trace.written "" interruptClear ++ [receiveInterrupts]

theorem drained_drainKeys (port : SerialPort) :
    port.Drained port.drainKeys.2 := by
  obtain ⟨_, emptied, takes, empty, after⟩ := port.drainKeys_eq
  obtain ⟨accesses, traced, taking⟩ := takes.taking
  have shown : emptied.status &&& receiveEmpty ≠ 0 := by
    have found := receiveEmpty_status emptied
    rw [empty] at found
    simpa using found
  have trace : port.drainKeys.2.trace.toList =
      port.trace.toList ++ accesses ++
        [statusRead emptied.status, interruptClearing] := by
    rw [after, ← traced]
    simp [clearReceive, writeRegister, poll, statusRead, interruptClearing]
  refine ⟨?_, ?_, ⟨accesses, emptied.status, taking, shown, trace⟩, ?_⟩
  · rw [after]
    exact empty
  · rw [after]
    exact takes.transmitted
  · rw [List.append_assoc] at trace
    rw [written_eq_of_traced trace, List.filterMap_append,
      taking.filterMap_valueFor?]
    rfl

end SerialPort

end Nucleus
