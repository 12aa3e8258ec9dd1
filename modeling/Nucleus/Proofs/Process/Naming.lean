import Nucleus.Process.Naming
import Nucleus.Proofs.Text.Reading
import Nucleus.Proofs.Text.Storage

/-!
Names in memory.  Any sixteen bytes are read without an index out of bounds, as
far as they are text.  However often a process has been named, its bytes are
text to their end: the characters of the last name that fit, up to the first
that is zero.
-/

namespace Nucleus

namespace Utf8

theorem ne_zero_of_mem_encodeChar {char : Char} (nonzero : char ≠ '\x00') :
    ∀ byte ∈ String.utf8EncodeChar char, byte ≠ 0 := by
  have positive : char.toNat ≠ 0 := by
    intro zero
    apply nonzero
    rw [← Char.ofNat_toNat char, zero]
  have valid : char.toNat.isValidChar := char.valid
  unfold Nat.isValidChar at valid
  unfold String.utf8EncodeChar
  simp only [Char.toNat_val]
  split_ifs with one two three <;>
    simp only [List.forall_mem_cons, List.not_mem_nil, false_implies,
      implies_true, and_true, ne_eq, ← UInt8.toNat_inj, UInt8.toNat_ofNat',
      UInt8.reduceToNat] <;>
    omega

theorem takeWhile_encode (text : List Char) (count : Nat) :
    (encode text ++ List.replicate count 0).takeWhile (· != 0) =
      encode (text.takeWhile (· != '\x00')) := by
  induction text with
  | nil => cases count <;> rfl
  | cons char text ih =>
      by_cases ends : char = '\x00'
      · rw [ends]
        rfl
      · have passed : ∀ byte ∈ String.utf8EncodeChar char,
            (byte != 0) = true := fun byte member =>
          bne_iff_ne.mpr (ne_zero_of_mem_encodeChar ends byte member)
        rw [encode_cons, List.append_assoc,
          List.takeWhile_append_of_pos passed, ih, List.takeWhile_cons,
          if_pos (bne_iff_ne.mpr ends), encode_cons]

end Utf8

namespace ProcessName

/-- The part of a name that there is room for. -/
def fitting (text : String) : List Char :=
  Utf8.fitting capacity text.toList

theorem toList_ofFn (source : List UInt8) (short : source.length ≤ 16) :
    (Vector.ofFn fun index : Fin 16 => source[index.val]?.getD 0).toList =
      source ++ List.replicate (16 - source.length) 0 := by
  apply List.ext_getElem
  · simp only [Vector.length_toList, List.length_append, List.length_replicate]
    omega
  · intro index within _
    rw [Vector.getElem_toList, Vector.getElem_ofFn, List.getElem_append]
    split
    · rename_i inside
      rw [List.getElem?_eq_getElem inside, Option.getD_some]
    · rename_i outside
      rw [List.getElem?_eq_none (Nat.not_lt.mp outside), Option.getD_none,
        List.getElem_replicate]

theorem bytes_ofString (text : String) :
    (ofString text).bytes.toList = Utf8.encode (fitting text) ++
      List.replicate (capacity - Utf8.size (fitting text)) 0 := by
  have short : Utf8.size (fitting text) ≤ capacity :=
    Utf8.size_fitting_le capacity text.toList
  rw [ofString, Utf8.cut_encode]
  exact toList_ofFn _ short

theorem wipe_eq (name : ProcessName) : name.wipe = empty := by
  rw [wipe, empty]
  congr 1
  ext index within
  simp only [Vector.getElem_map, Vector.getElem_replicate]

theorem set?_eq (name : ProcessName) (text : String) :
    name.set? text = some (ofString text) := by
  have bounded := Utf8.lastBoundary_le (Utf8.encode text.toList)
    (min (Utf8.encode text.toList).length capacity)
  simp only [set?, ofString, Utf8.cut, Utf8.stepBack?_eq, wipe_eq,
    Option.bind_eq_bind, Option.bind_some]
  generalize Utf8.encode text.toList = bytes at bounded ⊢
  generalize Utf8.lastBoundary bytes (min bytes.length capacity) = stop
    at bounded ⊢
  have within : stop ≤ bytes.length := by omega
  have room : stop ≤ capacity := by omega
  rw [slice?_zero within, Option.bind_some, overwrite?,
    if_pos ⟨room, List.length_take_of_le within⟩]
  simp only [empty, Slots.get_replicate]

theorem slice?_shown (name : ProcessName) :
    slice? name.bytes.toList 0
        ((name.bytes.toList.findIdx? (· == 0)).getD capacity) =
      some (name.bytes.toList.takeWhile (· != 0)) := by
  have full : name.bytes.toList.length = capacity := Vector.length_toList
  have stop : (name.bytes.toList.findIdx? (· == 0)).getD
      name.bytes.toList.length = name.bytes.toList.findIdx (· == 0) :=
    List.findIdx_eq_getD_findIdx?.symm
  rw [← full, stop, slice?_zero List.findIdx_le_length,
    List.takeWhile_eq_take_findIdx_not]
  simp only [bne, Bool.not_not]

theorem exists_read? (name : ProcessName) :
    ∃ reading, name.read? = some reading ∧ reading.text = name.text := by
  simp only [read?, slice?_shown, Option.bind_eq_bind, Option.bind_some]
  cases decoded : Utf8.decode? (name.bytes.toList.takeWhile (· != 0)) with
  | some text =>
      refine ⟨_, rfl, ?_⟩
      rw [ProcessName.text, Utf8.soundText_of_decode? decoded]
      rfl
  | none =>
      have begins :
          Utf8.encode (Utf8.soundText
            (name.bytes.toList.takeWhile (· != 0))) <+: name.bytes.toList :=
        (Utf8.prefix_encode_soundText _).trans (List.takeWhile_prefix _)
      dsimp only
      rw [slice?_zero begins.length_le, Option.bind_some,
        ← List.prefix_iff_eq_take.mp begins, Utf8.decode?_encode]
      exact ⟨_, rfl, rfl⟩

/-- What is seen of a name: of the part that fits, the characters before the
first that is zero. -/
def visible (text : String) : List Char :=
  (fitting text).takeWhile (· != '\x00')

theorem read?_ofString (text : String) :
    (ofString text).read? = some (.whole (String.ofList (visible text))) := by
  have before : (ofString text).bytes.toList.takeWhile (· != 0) =
      Utf8.encode (visible text) := by
    rw [bytes_ofString, Utf8.takeWhile_encode, visible]
  simp only [read?, slice?_shown, before, Utf8.decode?_encode,
    Option.bind_eq_bind, Option.bind_some]

theorem text_ofString (text : String) :
    (ofString text).text = String.ofList (visible text) := by
  obtain ⟨reading, reads, same⟩ := exists_read? (ofString text)
  rw [read?_ofString] at reads
  cases reads
  exact same.symm

end ProcessName

namespace Process

/-- A process is named, and `kept` of the name is in its memory. -/
structure Named (process : Process) (name : String) (kept : List Char) :
    Prop where
  /-- Every beginning of the name that fits is one of what is kept. -/
  longest : ∀ start, start <+: kept ↔
    start <+: name.toList ∧ Utf8.size start ≤ ProcessName.capacity
  /-- Of an earlier name there is nothing left. -/
  bytes : process.name.bytes.toList = Utf8.encode kept ++
    List.replicate (ProcessName.capacity - Utf8.size kept) 0
  read : process.name.read? =
    some (.whole (String.ofList (kept.takeWhile (· != '\x00'))))
  text : process.name.text =
    String.ofList (kept.takeWhile (· != '\x00'))

theorem setName?_eq (process : Process) (text : String) :
    process.setName? text =
      some { process with name := ProcessName.ofString text } := by
  rw [setName?, ProcessName.set?_eq]
  rfl

theorem setNames?_eq (process : Process) (earlier : List String)
    (last : String) :
    process.setNames? (earlier ++ [last]) =
      some { process with name := ProcessName.ofString last } := by
  induction earlier generalizing process with
  | nil =>
      rw [setNames?, List.nil_append, List.foldlM_cons, setName?_eq]
      rfl
  | cons text rest ih =>
      rw [setNames?, List.cons_append, List.foldlM_cons, setName?_eq]
      exact ih { process with name := ProcessName.ofString text }

/-- However often a process has been named, no index has been out of bounds,
and its name is what fits of the last one, up to the first character that is
zero. -/
theorem last_name_kept (process : Process) (earlier : List String)
    (last : String) :
    ∃ after kept, process.setNames? (earlier ++ [last]) = some after ∧
      after = { process with name := ProcessName.ofString last } ∧
      after.Named last kept := by
  refine ⟨_, ProcessName.fitting last, setNames?_eq process earlier last,
    rfl, ?_⟩
  exact
    { longest := fun _ => Utf8.prefix_fitting_iff
      bytes := ProcessName.bytes_ofString last
      read := ProcessName.read?_ofString last
      text := ProcessName.text_ofString last }

/-- Nothing shows of the first name, and of the second not half a character. -/
example : (Process.vacant.setNames?
    ["sixteen letters.", "fifteen letters\u00e9"]).map (·.name.read?) =
      some (some (.whole "fifteen letters")) := by
  decide +kernel

end Process

end Nucleus
