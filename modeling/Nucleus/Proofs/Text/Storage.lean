import Nucleus.Proofs.Text.Cutting
import Nucleus.Text.Storage

/-!
Messages in memory.  Whatever is written or cleared, in any order, no access
leaves its array, and what is taken of the array is the message: text, to which
every piece has added its longest beginning that fitted.
-/

namespace Nucleus

inductive MessageRequest
  | write (piece : String)
  | clear
  deriving DecidableEq, Repr

namespace Message

variable {capacity : Nat} {message : Message capacity}

def serve (message : Message capacity) : MessageRequest → Message capacity
  | .write piece => message.write piece
  | .clear => empty

def serveAll (message : Message capacity) (requests : List MessageRequest) :
    Message capacity :=
  requests.foldl serve message

theorem serve_of_encode {text : List Char}
    (encoded : message.bytes = Utf8.encode text) (request : MessageRequest) :
    ∃ text, (message.serve request).bytes = Utf8.encode text := by
  cases request with
  | write piece => exact ⟨_, bytes_write_of_encode encoded piece⟩
  | clear => exact ⟨[], rfl⟩

theorem serveAll_of_encode {text : List Char}
    (encoded : message.bytes = Utf8.encode text)
    (requests : List MessageRequest) :
    ∃ text, (message.serveAll requests).bytes = Utf8.encode text := by
  induction requests generalizing message text with
  | nil => exact ⟨text, encoded⟩
  | cons request rest ih =>
      obtain ⟨after, encodedAfter⟩ := serve_of_encode encoded request
      exact ih encodedAfter

end Message

theorem difference?_eq {index taken : Nat} (ordered : taken ≤ index) :
    difference? index taken = some (index - taken) := by
  rw [difference?, if_pos ordered]

theorem slice?_zero {bytes : List UInt8} {stop : Nat}
    (within : stop ≤ bytes.length) :
    slice? bytes 0 stop = some (bytes.take stop) := by
  rw [slice?, if_pos ⟨Nat.zero_le stop, within⟩, List.drop_zero]

theorem Utf8.stepBack?_eq (bytes : List UInt8) (index : Nat) :
    stepBack? bytes index = some (lastBoundary bytes index) := by
  induction index with
  | zero => rfl
  | succ index ih =>
      rw [stepBack?, lastBoundary]
      split
      · rfl
      · exact ih

namespace MessageStorage

variable {capacity : Nat} {storage : MessageStorage capacity}
  {message : Message capacity}

theorem exists_overwrite? {start stop : Nat} {source : List UInt8}
    (bounded : start ≤ stop ∧ stop ≤ capacity ∧
      source.length = stop - start) :
    ∃ written, storage.overwrite? start stop source = some written ∧
      written.data =
        storage.data.take start ++ source ++ storage.data.drop stop := by
  rw [overwrite?, dif_pos bounded]
  exact ⟨_, rfl, rfl⟩

/-- What is taken of the array is the message. -/
structure Holds (storage : MessageStorage capacity)
    (message : Message capacity) : Prop where
  used_le : storage.used ≤ capacity
  content : storage.data.take storage.used = message.bytes

theorem holds_empty :
    (empty : MessageStorage capacity).Holds Message.empty :=
  ⟨Nat.zero_le capacity, rfl⟩

theorem Holds.length (holds : storage.Holds message) :
    message.length = storage.used := by
  rw [Message.length, ← holds.content, List.length_take, storage.length_data]
  exact Nat.min_eq_left holds.used_le

theorem Holds.bytes? (holds : storage.Holds message) :
    storage.bytes? = some message.bytes := by
  have within : storage.used ≤ storage.data.length := by
    rw [storage.length_data]
    exact holds.used_le
  rw [MessageStorage.bytes?, slice?_zero within, holds.content]

theorem Holds.text? (holds : storage.Holds message) :
    storage.text? = some message.text := by
  rw [MessageStorage.text?, holds.bytes?]
  rfl

theorem Holds.write (holds : storage.Holds message) (piece : String) :
    ∃ after, storage.write? piece = some after ∧
      after.Holds (message.write piece) := by
  have used_le := holds.used_le
  have bounded := Utf8.lastBoundary_le (Utf8.encode piece.toList)
    (min (Utf8.encode piece.toList).length (capacity - storage.used))
  have appended : (message.write piece).bytes = message.bytes ++
      (Utf8.encode piece.toList).take
        (Utf8.lastBoundary (Utf8.encode piece.toList)
          (min (Utf8.encode piece.toList).length
            (capacity - storage.used))) := by
    rw [Message.bytes_write, holds.length, Utf8.cut]
  simp only [write?, difference?_eq used_le, Utf8.stepBack?_eq,
    Option.bind_eq_bind, Option.bind_some]
  generalize Utf8.encode piece.toList = bytes at bounded appended ⊢
  generalize Utf8.lastBoundary bytes
    (min bytes.length (capacity - storage.used)) = copied
    at bounded appended ⊢
  have within : copied ≤ bytes.length := by omega
  have source : (bytes.take copied).length = copied := by
    rw [List.length_take]
    omega
  have front : (storage.data.take storage.used ++ bytes.take copied).length =
      storage.used + copied := by
    rw [List.length_append, source, List.length_take, storage.length_data]
    omega
  have inside : storage.used ≤ storage.used + copied ∧
      storage.used + copied ≤ capacity ∧
        (bytes.take copied).length = storage.used + copied - storage.used := by
    omega
  obtain ⟨written, overwrites, data⟩ := storage.exists_overwrite? inside
  refine ⟨{ written with used := storage.used + copied }, ?_, ?_, ?_⟩
  · rw [slice?_zero within, Option.bind_some, overwrites]
    rfl
  · change storage.used + copied ≤ capacity
    omega
  · change written.data.take (storage.used + copied) = _
    rw [data, List.take_left' front, appended, holds.content]

theorem holds_clear (storage : MessageStorage capacity) :
    storage.clear.Holds Message.empty :=
  ⟨Nat.zero_le capacity, rfl⟩

def serve? (storage : MessageStorage capacity) :
    MessageRequest → Option (MessageStorage capacity)
  | .write piece => storage.write? piece
  | .clear => some storage.clear

def serveAll? (storage : MessageStorage capacity)
    (requests : List MessageRequest) : Option (MessageStorage capacity) :=
  requests.foldlM serve? storage

theorem Holds.serve (holds : storage.Holds message)
    (request : MessageRequest) :
    ∃ after, storage.serve? request = some after ∧
      after.Holds (message.serve request) := by
  cases request with
  | write piece => exact holds.write piece
  | clear => exact ⟨storage.clear, rfl, holds_clear storage⟩

theorem Holds.serveAll (holds : storage.Holds message)
    (requests : List MessageRequest) :
    ∃ after, storage.serveAll? requests = some after ∧
      after.Holds (message.serveAll requests) := by
  induction requests generalizing storage message with
  | nil => exact ⟨storage, rfl, holds⟩
  | cons request rest ih =>
      obtain ⟨next, served, holdsNext⟩ := holds.serve request
      obtain ⟨after, servedAll, holdsAfter⟩ := ih holdsNext
      refine ⟨after, ?_, holdsAfter⟩
      rw [serveAll?, List.foldlM_cons, served]
      exact servedAll

structure Shows (storage : MessageStorage capacity) (text : List Char) :
    Prop where
  used_le : storage.used ≤ capacity
  bytes : storage.bytes? = some (Utf8.encode text)
  valid : (Utf8.encode text).toByteArray.IsValidUTF8
  text : storage.text? = some (String.ofList text)

/-- A piece is written, and `kept` of it is appended to what was shown. -/
structure Appends (storage : MessageStorage capacity) (text : List Char)
    (piece : String) (after : MessageStorage capacity) (kept : List Char) :
    Prop where
  written : storage.write? piece = some after
  shows : after.Shows (text ++ kept)
  used_eq : after.used = storage.used + Utf8.size kept
  /-- Every beginning of the piece that fits is one of what is kept. -/
  longest : ∀ start, start <+: kept ↔
    start <+: piece.toList ∧ Utf8.size start ≤ capacity - storage.used

theorem Holds.shows (holds : storage.Holds message) {text : List Char}
    (encoded : message.bytes = Utf8.encode text) : storage.Shows text where
  used_le := holds.used_le
  bytes := by rw [holds.bytes?, encoded]
  valid := ByteArray.isValidUTF8_utf8Encode
  text := by rw [holds.text?, Message.text_of_encode encoded]

theorem Holds.appends (holds : storage.Holds message) {text : List Char}
    (encoded : message.bytes = Utf8.encode text) (piece : String) :
    ∃ after, storage.Appends text piece after
      (Utf8.fitting (capacity - storage.used) piece.toList) := by
  obtain ⟨after, written, holdsAfter⟩ := holds.write piece
  have grown := Message.bytes_write_of_encode encoded piece
  rw [holds.length] at grown
  have length : after.used = storage.used +
      Utf8.size (Utf8.fitting (capacity - storage.used) piece.toList) := by
    rw [← holdsAfter.length, Message.length, grown, Utf8.encode_append,
      List.length_append, ← encoded, ← Message.length, holds.length, Utf8.size]
  exact ⟨after, written, holdsAfter.shows grown, length,
    fun _ => Utf8.prefix_fitting_iff⟩

/-- Whatever is asked of an empty message, memory shows text, the same as the
message holds; and one more piece adds exactly as much as fits. -/
theorem text_throughout (capacity : Nat) (requests : List MessageRequest) :
    ∃ (storage : MessageStorage capacity) (text : List Char),
      empty.serveAll? requests = some storage ∧
        storage.Shows text ∧
        ((Message.empty : Message capacity).serveAll requests).bytes =
          Utf8.encode text ∧
        ∀ piece, ∃ after kept, storage.Appends text piece after kept := by
  obtain ⟨storage, served, holds⟩ :=
    (holds_empty : (empty : MessageStorage capacity).Holds
      Message.empty).serveAll requests
  have fresh : (Message.empty : Message capacity).bytes = Utf8.encode [] := rfl
  obtain ⟨text, encoded⟩ := Message.serveAll_of_encode fresh requests
  refine ⟨storage, text, served, holds.shows encoded, encoded, fun piece => ?_⟩
  obtain ⟨after, appends⟩ := holds.appends encoded piece
  exact ⟨after, _, appends⟩

end MessageStorage

end Nucleus
