import Nucleus.Device.Serial

/-!
Transmission.  However often the transmit queue is full, and for however long,
every byte goes out, each of them right behind a status read that found room for
it.  Nothing else is written to the port, and nothing is taken from it.
-/

namespace Nucleus

namespace SerialPort

/-- The bytes that go out for a text: a carriage return before every line
feed. -/
def onWire (bytes : List UInt8) : List UInt8 :=
  bytes.flatMap fun byte => if byte = 0x0a then [0x0d, byte] else [byte]

theorem onWire_cons (byte : UInt8) (rest : List UInt8) :
    onWire (byte :: rest) = onWire [byte] ++ onWire rest := by
  rw [onWire, onWire, onWire, List.flatMap_cons, List.flatMap_singleton]

theorem putBytes_append (port : SerialPort) (first second : List UInt8) :
    port.putBytes (first ++ second) =
      (port.putBytes first).putBytes second :=
  List.foldl_append

def statusRead (status : UInt32) : Access :=
  ⟨"", false, statusRegister, status⟩

def dataWrite (byte : UInt8) : Access :=
  ⟨"", true, dataRegister, byte.toUInt32⟩

def valueFor? (offset : Nat) (access : Access) : Option UInt32 :=
  if access.isWrite ∧ access.block = "" ∧ access.offset = offset then
    some access.value
  else none

theorem valueFor?_read {access : Access} (reads : access.isWrite = false)
    (offset : Nat) : valueFor? offset access = none := by
  simp [valueFor?, reads]

theorem valueFor?_dataWrite (offset : Nat) (byte : UInt8) :
    valueFor? offset (dataWrite byte) =
      if offset = dataRegister then some byte.toUInt32 else none := by
  simp [valueFor?, dataWrite, eq_comm]

theorem written_eq_of_traced {before after : SerialPort}
    {accesses : List Access}
    (traced : after.trace.toList = before.trace.toList ++ accesses)
    (offset : Nat) :
    after.trace.written "" offset =
      before.trace.written "" offset ++
        accesses.filterMap (valueFor? offset) := by
  rw [Trace.written, traced, List.filterMap_append]
  rfl

inductive Sending : List UInt8 → List Access → Prop
  | done : Sending [] []
  | wait {bytes : List UInt8} {accesses : List Access} (status : UInt32)
      (full : status &&& transmitFull ≠ 0) (later : Sending bytes accesses) :
      Sending bytes (statusRead status :: accesses)
  | send {bytes : List UInt8} {accesses : List Access} (status : UInt32)
      (byte : UInt8) (room : status &&& transmitFull = 0)
      (later : Sending bytes accesses) :
      Sending (byte :: bytes)
        (statusRead status :: dataWrite byte :: accesses)

variable {port before middle after : SerialPort}
  {bytes first second : List UInt8}

theorem Sending.append {accesses others : List Access}
    (sending : Sending first accesses) (sendingOthers : Sending second others) :
    Sending (first ++ second) (accesses ++ others) := by
  induction sending with
  | done => exact sendingOthers
  | wait status full _ ih => exact .wait status full ih
  | send status byte room _ ih => exact .send status byte room ih

/-- From one state of the port to another these bytes have been sent. -/
structure Sends (bytes : List UInt8) (before after : SerialPort) : Prop where
  transmitted : after.transmitted.toList =
    before.transmitted.toList ++ bytes
  received : after.received = before.received
  sending : ∃ accesses,
    after.trace.toList = before.trace.toList ++ accesses ∧
      Sending bytes accesses

theorem Sends.refl (port : SerialPort) : Sends [] port port :=
  ⟨(List.append_nil _).symm, rfl, [], (List.append_nil _).symm, .done⟩

theorem Sends.trans (earlier : Sends first before middle)
    (later : Sends second middle after) :
    Sends (first ++ second) before after := by
  obtain ⟨accesses, traced, sending⟩ := earlier.sending
  obtain ⟨others, tracedOthers, sendingOthers⟩ := later.sending
  refine ⟨?_, later.received.trans earlier.received, accesses ++ others, ?_,
    sending.append sendingOthers⟩
  · rw [later.transmitted, earlier.transmitted, List.append_assoc]
  · rw [tracedOthers, traced, List.append_assoc]

theorem sends_poll (full : port.status &&& transmitFull ≠ 0) :
    Sends [] port port.poll where
  transmitted := (List.append_nil _).symm
  received := rfl
  sending := ⟨_, Trace.toList_read _ _ _ _, .wait port.status full .done⟩

theorem sends_transmit (room : port.status &&& transmitFull = 0)
    (byte : UInt8) : Sends [byte] port (port.poll.transmit byte) where
  transmitted := Array.toList_push
  received := rfl
  sending := by
    refine ⟨_, ?_, .send port.status byte room .done⟩
    simp [transmit, poll, statusRead, dataWrite]

theorem sends_put (port : SerialPort) (byte : UInt8) :
    Sends [byte] port (port.put byte) := by
  unfold put
  fun_induction awaitRoom port with
  | case1 port full ih => exact (sends_poll (by simpa using full)).trans ih
  | case2 port room => exact sends_transmit (by simpa using room) byte

theorem sends_putByte (port : SerialPort) (byte : UInt8) :
    Sends (onWire [byte]) port (port.putByte byte) := by
  rw [onWire, List.flatMap_singleton, putByte]
  split
  · rename_i newline
    exact (sends_put port 0x0d).trans (sends_put _ byte)
  · exact sends_put port byte

theorem sends_putBytes (port : SerialPort) (bytes : List UInt8) :
    Sends (onWire bytes) port (port.putBytes bytes) := by
  induction bytes generalizing port with
  | nil => exact Sends.refl port
  | cons byte rest ih =>
      rw [onWire_cons]
      exact (sends_putByte port byte).trans (ih _)

theorem Sending.filterMap_valueFor? {accesses : List Access}
    (sending : Sending bytes accesses) (offset : Nat) :
    accesses.filterMap (valueFor? offset) =
      if offset = dataRegister then bytes.map UInt8.toUInt32 else [] := by
  induction sending with
  | done => rw [List.filterMap_nil, List.map_nil, ite_self]
  | wait status full _ ih =>
      rw [List.filterMap_cons_none (valueFor?_read rfl offset), ih]
  | send status byte room _ ih =>
      rw [List.filterMap_cons_none (valueFor?_read rfl offset),
        List.filterMap_cons, valueFor?_dataWrite, ih]
      by_cases data : offset = dataRegister
      · rw [if_pos data, if_pos data, if_pos data]
        rfl
      · rw [if_neg data, if_neg data, if_neg data]

theorem Sends.written (sends : Sends bytes before after) (offset : Nat) :
    after.trace.written "" offset =
      before.trace.written "" offset ++
        if offset = dataRegister then bytes.map UInt8.toUInt32 else [] := by
  obtain ⟨accesses, traced, sending⟩ := sends.sending
  rw [written_eq_of_traced traced, sending.filterMap_valueFor?]

end SerialPort

end Nucleus
