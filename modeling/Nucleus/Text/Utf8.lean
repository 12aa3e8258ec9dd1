/-!
Text as bytes.  `chunks` splits any byte sequence into stretches of text, each
ended by the longest run of bytes that begins a character without finishing
one; `cut` finds the last character boundary at or before a limit.
-/

namespace Nucleus

namespace Utf8

def encode (text : List Char) : List UInt8 :=
  text.flatMap String.utf8EncodeChar

def isContinuation (byte : UInt8) : Bool :=
  0x80 ≤ byte && byte ≤ 0xbf

private def payload (byte : UInt8) (width : Nat) : Nat :=
  byte.toNat % width

/-- The bytes that may follow a lead byte directly: the first continuation is
narrower after `e0`, `ed`, `f0` and `f4`, which rules out overlong forms,
surrogates and code points past the last one. -/
def follows (lead next : UInt8) : Bool :=
  if lead = 0xe0 then 0xa0 ≤ next && next ≤ 0xbf
  else if lead = 0xed then 0x80 ≤ next && next ≤ 0x9f
  else if lead = 0xf0 then 0x90 ≤ next && next ≤ 0xbf
  else if lead = 0xf4 then 0x80 ≤ next && next ≤ 0x8f
  else isContinuation next

/-- Number of bytes that the character starting with a lead byte occupies. -/
def span? (lead : UInt8) : Option Nat :=
  if lead < 0x80 then some 1
  else if 0xc2 ≤ lead && lead ≤ 0xdf then some 2
  else if 0xe0 ≤ lead && lead ≤ 0xef then some 3
  else if 0xf0 ≤ lead && lead ≤ 0xf4 then some 4
  else none

/-- Reads the character that starts with `lead`.  Without one, the bytes that
belong to its unfinished beginning are skipped. -/
def readChar (lead : UInt8) (rest : List UInt8) : Option Char × List UInt8 :=
  match span? lead, rest with
  | some 1, rest => (some (Char.ofNat lead.toNat), rest)
  | some 2, second :: rest' =>
      if follows lead second then
        (some (Char.ofNat (payload lead 32 * 64 + payload second 64)), rest')
      else (none, rest)
  | some 3, second :: rest' =>
      if follows lead second then
        match rest' with
        | third :: rest'' =>
            if isContinuation third then
              (some (Char.ofNat (payload lead 16 * 4096 +
                payload second 64 * 64 + payload third 64)), rest'')
            else (none, rest')
        | [] => (none, [])
      else (none, rest)
  | some 4, second :: rest' =>
      if follows lead second then
        match rest' with
        | third :: rest'' =>
            if isContinuation third then
              match rest'' with
              | fourth :: rest''' =>
                  if isContinuation fourth then
                    (some (Char.ofNat (payload lead 8 * 262144 +
                      payload second 64 * 4096 + payload third 64 * 64 +
                      payload fourth 64)), rest''')
                  else (none, rest'')
              | [] => (none, [])
            else (none, rest')
        | [] => (none, [])
      else (none, rest)
  | _, rest => (none, rest)

theorem readChar_length_le (lead : UInt8) (rest : List UInt8) :
    (readChar lead rest).2.length ≤ rest.length := by
  unfold readChar
  repeat' split
  all_goals simp_all <;> omega

/-- A stretch of text, followed by bytes that encode nothing when `broken`. -/
structure Chunk where
  text : List Char
  broken : Bool
  deriving DecidableEq, Repr

/-- Splits bytes after the characters in `before`, held in reverse. -/
def chunksAfter (before : List Char) : List UInt8 → List Chunk
  | [] => if before.isEmpty then [] else [⟨before.reverse, false⟩]
  | lead :: rest =>
      let reading := readChar lead rest
      match reading.1 with
      | some char => chunksAfter (char :: before) reading.2
      | none => ⟨before.reverse, true⟩ :: chunksAfter [] reading.2
termination_by bytes => bytes.length
decreasing_by
  all_goals exact Nat.lt_succ_of_le (readChar_length_le lead rest)

/-- The stretches of text in a byte sequence, in order. -/
def chunks (bytes : List UInt8) : List Chunk :=
  chunksAfter [] bytes

def decode? (bytes : List UInt8) : Option (List Char) :=
  let parts := chunks bytes
  if parts.any (·.broken) then none else some (parts.flatMap (·.text))

/-- The text of the longest sound beginning of a byte sequence. -/
def soundText (bytes : List UInt8) : List Char :=
  match chunks bytes with
  | [] => []
  | first :: _ => first.text

/-- Every broken part becomes one replacement character. -/
def lossy (bytes : List UInt8) : List Char :=
  (chunks bytes).flatMap fun chunk =>
    if chunk.broken then chunk.text ++ [Char.ofNat 0xfffd] else chunk.text

/-- Between two characters, or at either end. -/
def isBoundary (bytes : List UInt8) (index : Nat) : Bool :=
  if index = 0 then true
  else
    match bytes[index]? with
    | some byte => !isContinuation byte
    | none => index = bytes.length

def lastBoundary (bytes : List UInt8) : Nat → Nat
  | 0 => 0
  | index + 1 =>
      if isBoundary bytes (index + 1) then index + 1
      else lastBoundary bytes index

/-- The longest beginning that ends on a boundary and fits the room. -/
def cut (bytes : List UInt8) (room : Nat) : List UInt8 :=
  bytes.take (lastBoundary bytes (min bytes.length room))

theorem lastBoundary_le (bytes : List UInt8) (index : Nat) :
    lastBoundary bytes index ≤ index := by
  induction index with
  | zero => simp [lastBoundary]
  | succ index ih =>
      simp only [lastBoundary]
      split
      · exact Nat.le_refl _
      · omega

end Utf8

end Nucleus
