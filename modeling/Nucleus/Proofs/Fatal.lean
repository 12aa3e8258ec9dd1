import Nucleus.Fatal
import Nucleus.Proofs.Text.Numerals
import Nucleus.Proofs.Text.Truncation
import Nucleus.Word

/-!
The fatal path.  Of all that is reported, only the first is shown, and a report
is shown in full.  The text of a report gives its registers and its kind away,
up to exception classes that go by the same name.
-/

namespace Nucleus

namespace FatalKind

/-- Kinds that no text tells apart. -/
inductive Alike : FatalKind → FatalKind → Prop
  | same (kind : FatalKind) : Alike kind kind
  | named {left right : UInt8}
      (name : ExceptionClass.name left = ExceptionClass.name right) :
      Alike (unexpectedException left) (unexpectedException right)

theorem toList_text (kind : FatalKind) :
    kind.text.toList = kind.pieces.flatMap String.toList := by
  rw [text, String.toList_join]

/-- How the text of each kind opens, in the order of their codes. -/
def openings : List String :=
  ["unknown", "unexpected e", "bad", "trap", "unexpected F", "SError",
    "kernel"]

def codeIn (text : List Char) : Nat :=
  openings.findIdx (·.toList.isPrefixOf text) + 1

theorem codeIn_text (kind : FatalKind) :
    codeIn kind.text.toList = kind.code := by
  rw [toList_text]
  cases kind <;> rfl

theorem code_eq_of_text {left right : FatalKind}
    (same : left.text = right.text) : left.code = right.code := by
  rw [← codeIn_text, same, codeIn_text]

theorem toList_text_unknownSyscall (number : UInt16) :
    (unknownSyscall number).text.toList =
      "unknown syscall ".toList ++ (Numeral.decimal number.toNat).toList := by
  rw [toList_text, pieces, List.flatMap_cons, List.flatMap_singleton]

theorem toList_text_unexpectedException (exceptionClass : UInt8) :
    (unexpectedException exceptionClass).text.toList =
      "unexpected exception: ".toList ++
        (ExceptionClass.name exceptionClass).toList := by
  rw [toList_text, pieces, List.flatMap_cons, List.flatMap_singleton]

theorem toList_text_badUserMemory (address length : Nat) :
    (badUserMemory address length).text.toList =
      "bad user memory 0x".toList ++ (Numeral.digits 16 address ++
        '+' :: Numeral.digits 10 length) := by
  rw [toList_text, pieces, List.flatMap_cons, List.flatMap_cons,
    List.flatMap_cons, List.flatMap_singleton, Numeral.hex, Numeral.decimal,
    String.toList_ofList, String.toList_ofList]
  simp

theorem split_inj {char : Char} {first other rest left : List Char}
    (absent : char ∉ first) (absentOther : char ∉ other)
    (same : first ++ char :: rest = other ++ char :: left) :
    first = other ∧ rest = left := by
  have before (text more : List Char) (absent : char ∉ text) :
      (text ++ char :: more).takeWhile (· != char) = text := by
    have others : ∀ found ∈ text, (found != char) = true := by
      intro found member
      rw [bne_iff_ne]
      rintro rfl
      exact absent member
    rw [List.takeWhile_append_of_pos others,
      List.takeWhile_cons_of_neg (by simp), List.append_nil]
  have heads : first = other := by
    rw [← before first rest absent, same, before other left absentOther]
  subst heads
  exact ⟨rfl, List.tail_eq_of_cons_eq (List.append_cancel_left same)⟩

theorem alike_of_text {left right : FatalKind}
    (same : left.text = right.text) : left.Alike right := by
  have sameCode := code_eq_of_text same
  replace same := congrArg String.toList same
  -- Codes differ off the diagonal.
  cases left <;> cases right <;> try cases sameCode
  case unknownSyscall.unknownSyscall number other =>
    rw [toList_text_unknownSyscall, toList_text_unknownSyscall] at same
    have numerals := String.toList_inj.mp (List.append_cancel_left same)
    rw [UInt16.toNat_inj.mp (Numeral.decimal_inj numerals)]
    exact .same _
  case unexpectedException.unexpectedException exceptionClass other =>
    rw [toList_text_unexpectedException, toList_text_unexpectedException]
      at same
    exact .named (String.toList_inj.mp (List.append_cancel_left same))
  case badUserMemory.badUserMemory address length address' length' =>
    rw [toList_text_badUserMemory, toList_text_badUserMemory] at same
    obtain ⟨addresses, lengths⟩ := split_inj
      (Numeral.plus_notMem_hexDigits address)
      (Numeral.plus_notMem_hexDigits address') (List.append_cancel_left same)
    rw [Numeral.digits_inj (by decide) (by decide) addresses,
      Numeral.digits_inj (by decide) (by decide) lengths]
    exact .same _
  all_goals exact .same _

theorem text_eq_iff {left right : FatalKind} :
    left.text = right.text ↔ left.Alike right := by
  constructor
  · exact alike_of_text
  · intro alike
    cases alike with
    | same => rfl
    | named name => rw [text, text, pieces, pieces, name]

def InWords : FatalKind → Prop
  | badUserMemory address length => address ≤ maxWord ∧ length ≤ maxWord
  | _ => True

theorem size_name_le (exceptionClass : UInt8) :
    Utf8.size (ExceptionClass.name exceptionClass).toList ≤ 28 := by
  rw [Utf8.size_toList]
  unfold ExceptionClass.name
  split <;> decide

theorem size_text_le {kind : FatalKind} (inWords : kind.InWords) :
    Utf8.size kind.text.toList ≤ 55 := by
  cases kind with
  | unknownSyscall number =>
      have least : Utf8.size "unknown syscall ".toList = 16 := by decide
      have digits : Utf8.size (Numeral.decimal number.toNat).toList ≤ 5 :=
        Numeral.size_decimal_le (by decide)
          (number.toNat_lt.trans (by decide))
      rw [toList_text_unknownSyscall, Utf8.size_append]
      omega
  | unexpectedException exceptionClass =>
      have least : Utf8.size "unexpected exception: ".toList = 22 := by decide
      have name := size_name_le exceptionClass
      rw [toList_text_unexpectedException, Utf8.size_append]
      omega
  | badUserMemory address length =>
      obtain ⟨addressFits, lengthFits⟩ := inWords
      have least : Utf8.size "bad user memory 0x".toList = 18 := by decide
      have plus : ('+' : Char).utf8Size = 1 := rfl
      have first : Utf8.size (Numeral.digits 16 address) ≤ 16 :=
        Numeral.size_digits_le (by decide) (by decide) (by decide)
          (Nat.lt_of_le_of_lt addressFits (by decide))
      have second : Utf8.size (Numeral.digits 10 length) ≤ 20 :=
        Numeral.size_digits_le (by decide) (by decide) (by decide)
          (Nat.lt_of_le_of_lt lengthFits (by decide))
      rw [toList_text_badUserMemory, Utf8.size_append, Utf8.size_append,
        Utf8.size_cons]
      omega
  | noCurrentProcess => decide
  | fastInterrupt => decide
  | systemError => decide
  | kernelPanic => decide

end FatalKind

namespace FatalReport

/-- Reports that no text tells apart. -/
structure Alike (left right : FatalReport) : Prop where
  kind : left.kind.Alike right.kind
  syndrome : left.syndrome = right.syndrome
  address : left.address = right.address
  faultAddress : left.faultAddress = right.faultAddress

def registers (report : FatalReport) : List String :=
  [" (ESR=", Numeral.paddedHex 16 report.syndrome.toNat,
    " ELR=", Numeral.paddedHex 16 report.address.toNat,
    " FAR=", Numeral.paddedHex 16 report.faultAddress.toNat, ")"]

theorem toList_text (report : FatalReport) :
    report.text.toList =
      report.kind.text.toList ++ Message.whole report.registers := by
  rw [text, String.toList_join, FatalKind.toList_text]
  exact List.flatMap_append

theorem size_registers (report : FatalReport) :
    (Message.whole report.registers).length = 71 ∧
      Utf8.size (Message.whole report.registers) = 71 := by
  obtain ⟨length₁, size₁⟩ := Numeral.size_paddedHex_word report.syndrome
  obtain ⟨length₂, size₂⟩ := Numeral.size_paddedHex_word report.address
  obtain ⟨length₃, size₃⟩ := Numeral.size_paddedHex_word report.faultAddress
  simp only [registers, Message.whole_cons, Message.whole_nil,
    List.length_append, Utf8.size_append, length₁, length₂, length₃, size₁,
    size₂, size₃]
  decide

theorem word_of_paddedHex {left right : UInt64} {rest others : List Char}
    (same : (Numeral.paddedHex 16 left.toNat).toList ++ rest =
      (Numeral.paddedHex 16 right.toNat).toList ++ others) :
    left = right ∧ rest = others := by
  obtain ⟨numerals, rests⟩ := List.append_inj same
    ((Numeral.size_paddedHex_word left).1.trans
      (Numeral.size_paddedHex_word right).1.symm)
  exact ⟨UInt64.toNat_inj.mp
    (Numeral.paddedHex_inj (String.toList_inj.mp numerals)), rests⟩

theorem text_eq_iff {left right : FatalReport} :
    left.text = right.text ↔ left.Alike right := by
  constructor
  · intro same
    replace same := congrArg String.toList same
    rw [toList_text, toList_text] at same
    -- The registers are as long in one text as in the other.
    obtain ⟨kinds, same⟩ := List.append_inj' same
      (left.size_registers.1.trans right.size_registers.1.symm)
    simp only [registers, Message.whole_cons] at same
    obtain ⟨syndrome, same⟩ :=
      word_of_paddedHex (List.append_cancel_left same)
    obtain ⟨address, same⟩ :=
      word_of_paddedHex (List.append_cancel_left same)
    obtain ⟨faultAddress, -⟩ :=
      word_of_paddedHex (List.append_cancel_left same)
    exact ⟨FatalKind.alike_of_text (String.toList_inj.mp kinds), syndrome,
      address, faultAddress⟩
  · rintro ⟨kind, syndrome, address, faultAddress⟩
    rw [← String.toList_inj, toList_text, toList_text,
      FatalKind.text_eq_iff.mpr kind, registers, registers, syndrome, address,
      faultAddress]

theorem size_text_le {report : FatalReport}
    (inWords : report.kind.InWords) : Utf8.size report.text.toList ≤ 126 := by
  have kind := FatalKind.size_text_le inWords
  have registers := report.size_registers.2
  rw [toList_text, Utf8.size_append]
  omega

/-- A report is never cut. -/
theorem text_ofPieces {report : FatalReport}
    (inWords : report.kind.InWords) :
    (Message.ofPieces report.pieces :
      Message HaltLatch.messageCapacity).text = report.text := by
  have short := size_text_le inWords
  rw [text, String.toList_join, ← Message.whole] at short
  exact Message.text_ofPieces (short.trans (by decide))

end FatalReport

inductive FatalCall
  | render (pieces : List String) (code : Nat)
  | report (report : FatalReport)

namespace FatalCall

def InWords : FatalCall → Prop
  | .render _ _ => True
  | .report reported => reported.kind.InWords

/-- What a call shows if it is the first: any other text as far as it fits, and
a report in full. -/
def display : FatalCall → FatalDisplay
  | .render pieces code =>
      ⟨(Message.ofPieces pieces : Message HaltLatch.messageCapacity).text,
        code⟩
  | .report reported => ⟨reported.text, reported.code⟩

end FatalCall

namespace HaltLatch

def serve (latch : HaltLatch) : FatalCall → HaltLatch × Option FatalDisplay
  | .render pieces code => latch.render pieces code
  | .report report => latch.report report

def serveAll (latch : HaltLatch) :
    List FatalCall → HaltLatch × List (Option FatalDisplay)
  | [] => (latch, [])
  | call :: rest =>
      let (after, shown) := latch.serve call
      let (final, others) := after.serveAll rest
      (final, shown :: others)

theorem serve_opened {call : FatalCall} (inWords : call.InWords) :
    opened.serve call = (⟨true⟩, some call.display) := by
  cases call with
  | render pieces code => rfl
  | report report =>
      have full := FatalReport.text_ofPieces inWords
      rw [serve, HaltLatch.report, render, FatalCall.display, ← full]
      rfl

theorem serve_closed (call : FatalCall) :
    (⟨true⟩ : HaltLatch).serve call = (⟨true⟩, none) := by
  cases call <;> rfl

theorem serveAll_closed (calls : List FatalCall) :
    (⟨true⟩ : HaltLatch).serveAll calls =
      (⟨true⟩, calls.map fun _ => none) := by
  induction calls with
  | nil => rfl
  | cons call rest ih =>
      rw [serveAll, serve_closed]
      dsimp only
      rw [ih, List.map_cons]

/-- The first call closes the latch and is the only one to show anything: a
report in full, whose text belongs to no report that is not alike. -/
theorem shown_once_in_full :
    (∀ (first : FatalCall) (rest : List FatalCall), first.InWords →
      opened.serveAll (first :: rest) =
        (⟨true⟩, some first.display :: rest.map fun _ => none)) ∧
      ∀ left right : FatalReport,
        left.text = right.text ↔ left.Alike right := by
  refine ⟨fun first rest inWords => ?_, fun _ _ => FatalReport.text_eq_iff⟩
  rw [serveAll, serve_opened inWords]
  dsimp only
  rw [serveAll_closed]

def longest : FatalReport :=
  ⟨.badUserMemory maxWord maxWord, UInt64.ofNat maxWord, UInt64.ofNat maxWord,
    UInt64.ofNat maxWord⟩

theorem shown_once_in_full_longest :
    (FatalCall.report longest).InWords ∧
      longest.text =
        "bad user memory 0xffffffffffffffff+18446744073709551615" ++
          " (ESR=0xffffffffffffffff ELR=0xffffffffffffffff" ++
          " FAR=0xffffffffffffffff)" ∧
      opened.serveAll [.report longest, .render ["again"] 0, .report longest] =
        (⟨true⟩, [some ⟨longest.text, 3⟩, none, none]) :=
  ⟨⟨Nat.le_refl _, Nat.le_refl _⟩, by decide +kernel,
    shown_once_in_full.1 _ _ ⟨Nat.le_refl _, Nat.le_refl _⟩⟩

end HaltLatch

end Nucleus
