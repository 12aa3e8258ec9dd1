import Mathlib.Data.List.Basic
import Mathlib.Tactic.Ring
import Nucleus.Proofs.Text.Decoding
import Nucleus.Screen.Typesetting

/-!
Lettering.  Text is set line by line, every line from the column where the
first one began.  The laws say what becomes of text that goes on after other
text: which lines it is on, how many glyphs it is set with, and where.
-/

namespace Nucleus

/-- The second point is neither left of nor above the first one. -/
def Point.Leads (first second : Point) : Prop :=
  first.x ≤ second.x ∧ first.y ≤ second.y

theorem Point.Leads.refl (point : Point) : point.Leads point :=
  ⟨le_rfl, le_rfl⟩

theorem Point.Leads.trans {first second third : Point}
    (before : first.Leads second) (after : second.Leads third) :
    first.Leads third :=
  ⟨before.1.trans after.1, before.2.trans after.2⟩

namespace Typesetting

open Utf8

variable {text more line first : List Char} {others : List (List Char)}

theorem lines_append (whole : '\n' ∉ line)
    (split : lines more = first :: others) :
    lines (line ++ more) = (line ++ first) :: others := by
  induction line with
  | nil => exact split
  | cons char line ih =>
      obtain ⟨other, whole⟩ := List.ne_and_not_mem_of_not_mem_cons whole
      rw [List.cons_append, lines, ih whole]
      exact if_neg other.symm

theorem lines_of_line (whole : '\n' ∉ line) : lines line = [line] := by
  have none : lines [] = [[]] := rfl
  have alone := lines_append whole none
  rwa [List.append_nil] at alone

theorem exists_lines_eq (text : List Char) :
    ∃ first others, lines text = first :: others := by
  cases text with
  | nil => exact ⟨_, _, rfl⟩
  | cons char text =>
      rw [lines]
      split
      · exact ⟨_, _, rfl⟩
      · split
        · exact ⟨_, _, rfl⟩
        · exact ⟨_, _, rfl⟩

theorem lines_newline (whole : '\n' ∉ line) (text : List Char) :
    lines (line ++ '\n' :: text) = line :: lines text := by
  obtain ⟨first, others, split⟩ := exists_lines_eq text
  have bare : lines ('\n' :: text) = [] :: lines text := by
    rw [lines, split]
    rfl
  rw [lines_append whole bare, List.append_nil]

theorem lines_induction {motive : List Char → Prop}
    (last : ∀ line, '\n' ∉ line → motive line)
    (newline : ∀ line text, '\n' ∉ line → motive text →
      motive (line ++ '\n' :: text))
    (text : List Char) : motive text := by
  by_cases split : '\n' ∈ text
  · obtain ⟨line, rest, rfl, whole⟩ := List.eq_append_cons_of_mem split
    exact newline line rest whole (lines_induction last newline rest)
  · exact last text split
termination_by text.length
decreasing_by
  subst_vars
  rw [List.length_append, List.length_cons]
  omega

theorem trimLine_eq (line : List Char) :
    trimLine line =
      if line.getLast? = some '\r' then line.dropLast else line := by
  obtain rfl | ⟨front, last, rfl⟩ := List.eq_nil_or_concat' line
  · rfl
  · rw [List.getLast?_concat, List.dropLast_concat, trimLine,
      List.reverse_concat]
    by_cases return_ : last = '\r'
    · rw [return_, if_pos rfl]
      exact List.reverse_reverse front
    · rw [if_neg fun same => return_ (Option.some.inj same)]
      split
      · rename_i reversed
        exact absurd (List.cons.inj reversed).1 return_
      · rfl

theorem trimLine_eq_self (unreturned : line.getLast? ≠ some '\r') :
    trimLine line = line := by
  rw [trimLine_eq, if_neg unreturned]

theorem trimLine_append (unreturned : line.getLast? ≠ some '\r')
    (more : List Char) : trimLine (line ++ more) = line ++ trimLine more := by
  by_cases bare : more = []
  · subst bare
    rw [List.append_nil, trimLine_eq_self unreturned]
    exact (List.append_nil line).symm
  · rw [trimLine_eq, trimLine_eq, List.getLast?_append_of_ne_nil _ bare,
      List.dropLast_append_of_ne_nil bare]
    split_ifs
    · rfl
    · rfl

theorem getLast?_newline :
    (line ++ '\n' :: text).getLast? = some '\r' ↔
      text.getLast? = some '\r' := by
  rw [List.getLast?_append, List.getLast?_cons]
  cases text.getLast? with
  | none => simp
  | some last => rfl

/-- Nothing is left of the lines behind the first one. -/
def OneLine (text : List Char) : Prop :=
  ∀ line ∈ (lines text).tail, trimLine line = []

instance : Decidable (OneLine text) :=
  inferInstanceAs (Decidable (∀ line ∈ _, _))

theorem oneLine_of_line (whole : '\n' ∉ line) : OneLine line := by
  intro behind among
  rw [lines_of_line whole] at among
  exact absurd among List.not_mem_nil

theorem oneLine_append_iff (whole : '\n' ∉ line) :
    OneLine (line ++ more) ↔ OneLine more := by
  obtain ⟨first, others, split⟩ := exists_lines_eq more
  rw [OneLine, OneLine, lines_append whole split, split]
  rfl

theorem oneLine_newline_iff (whole : '\n' ∉ line) :
    OneLine (line ++ '\n' :: text) ↔
      ∀ line ∈ lines text, trimLine line = [] := by
  rw [OneLine, lines_newline whole]
  rfl

theorem exists_newline_of_not_oneLine (apart : ¬ OneLine text) :
    ∃ first rest, text = first ++ '\n' :: rest ∧
      ∃ line ∈ lines rest, trimLine line ≠ [] := by
  induction text using lines_induction with
  | last line whole => exact absurd (oneLine_of_line whole) apart
  | newline line rest whole _ =>
      rw [oneLine_newline_iff whole] at apart
      push Not at apart
      exact ⟨line, rest, rfl, apart⟩

theorem OneLine.of_append (single : OneLine (text ++ more)) : OneLine more := by
  induction text using lines_induction with
  | last line whole => exact (oneLine_append_iff whole).mp single
  | newline line text whole ih =>
      rw [List.append_assoc, List.cons_append,
        oneLine_newline_iff whole] at single
      exact ih fun behind among => single behind (List.mem_of_mem_tail among)

def lineEnd (corner : Point) (line : List Char) : Point :=
  ⟨corner.x + Font.cellWidth * line.length, corner.y⟩

def nextLine (corner : Point) : Point :=
  ⟨corner.x, corner.y + Font.cellHeight⟩

theorem setLine_append (corner : Point) (line more : List Char) :
    setLine corner (line ++ more) =
      setLine corner line ++ setLine (lineEnd corner line) more := by
  induction line generalizing corner with
  | nil => simp [setLine, lineEnd]
  | cons char line ih =>
      have next : lineEnd ⟨corner.x + Font.cellWidth, corner.y⟩ line =
          lineEnd corner (char :: line) := by
        simp only [lineEnd, List.length_cons, Nat.cast_add, Nat.cast_one]
        congr 1
        ring
      rw [List.cons_append, setLine, setLine, ih, next, List.cons_append]

theorem setText_of_line (whole : '\n' ∉ line) (corner : Point) :
    setText corner line =
      (setLine corner (trimLine line), lineEnd corner (trimLine line)) := by
  rw [setText, lines_of_line whole]
  rfl

theorem setText_newline (whole : '\n' ∉ line) (text : List Char)
    (corner : Point) :
    setText corner (line ++ '\n' :: text) =
      (setLine corner (trimLine line) ++ (setText (nextLine corner) text).1,
        (setText (nextLine corner) text).2) := by
  obtain ⟨first, others, split⟩ := exists_lines_eq text
  rw [setText, setText, lines_newline whole, split]
  rfl

theorem setLines_of_bare (bare : ∀ line ∈ others, line = []) (corner : Point)
    (line : List Char) :
    (setLines corner (line :: others)).1 = setLine corner line := by
  induction others generalizing corner line with
  | nil => rfl
  | cons next others ih =>
      rw [List.forall_mem_cons] at bare
      obtain ⟨rfl, bare⟩ := bare
      have below := ih bare (nextLine corner) []
      exact (congrArg (setLine corner line ++ ·) below).trans
        (List.append_nil _)

theorem setText_of_oneLine (single : OneLine text)
    (split : lines text = first :: others) (corner : Point) :
    (setText corner text).1 = setLine corner (trimLine first) := by
  rw [OneLine, split, List.tail_cons] at single
  rw [setText, split, List.map_cons]
  exact setLines_of_bare (List.forall_mem_map.mpr single) corner _

/-- Text that does not end in a carriage return may be set in two goes, when
all of the second is on one line. -/
theorem setText_append (unreturned : text.getLast? ≠ some '\r')
    (single : OneLine more) (corner : Point) :
    (setText corner (text ++ more)).1 =
      (setText corner text).1 ++
        (setText (setText corner text).2 more).1 := by
  induction text using lines_induction generalizing corner with
  | last line whole =>
      obtain ⟨first, others, split⟩ := exists_lines_eq more
      have joined := (oneLine_append_iff whole).mpr single
      rw [setText_of_line whole, setText_of_oneLine single split,
        setText_of_oneLine joined (lines_append whole split),
        trimLine_append unreturned, trimLine_eq_self unreturned,
        setLine_append]
  | newline line text whole ih =>
      rw [List.append_assoc, List.cons_append, setText_newline whole,
        setText_newline whole, ih (getLast?_newline.not.mp unreturned),
        List.append_assoc]

theorem setText_mark (corner : Point) {mark : Char}
    (whole : mark ≠ '\n') (unreturned : mark ≠ '\r') :
    setText corner [mark] = ([⟨mark, corner⟩], lineEnd corner [mark]) := by
  have kept : trimLine [mark] = [mark] := trimLine_eq_self
    fun same => unreturned (Option.some.inj same)
  rw [setText_of_line (List.mem_singleton.not.mpr whole.symm), kept]
  rfl

theorem setText_nil (corner : Point) : setText corner [] = ([], corner) := by
  rw [setText_of_line List.not_mem_nil]
  simp [trimLine, setLine, lineEnd]

theorem setText_marked (unreturned : text.getLast? ≠ some '\r')
    (single : OneLine more) (corner : Point) :
    (setText corner (text ++ replacement :: more)).1 =
      (setText corner text).1 ++
        ⟨replacement, (setText corner text).2⟩ ::
          (setText (lineEnd (setText corner text).2 [replacement]) more).1 := by
  have whole : '\n' ∉ [replacement] := by decide
  have last : [replacement].getLast? ≠ some '\r' := by decide
  have marked := (oneLine_append_iff whole).mpr single
  have behind := setText_append last single (setText corner text).2
  rw [setText_mark _ (by decide) (by decide)] at behind
  exact (setText_append unreturned marked corner).trans (congrArg _ behind)

def glyphCount (text : List Char) : Nat :=
  ((lines text).map fun line => (trimLine line).length).sum

theorem glyphCount_of_line (whole : '\n' ∉ line) :
    glyphCount line = (trimLine line).length := by
  rw [glyphCount, lines_of_line whole]
  rfl

theorem glyphCount_newline (whole : '\n' ∉ line) (text : List Char) :
    glyphCount (line ++ '\n' :: text) =
      (trimLine line).length + glyphCount text := by
  rw [glyphCount, lines_newline whole]
  rfl

theorem length_setLine (corner : Point) (line : List Char) :
    (setLine corner line).length = line.length := by
  induction line generalizing corner with
  | nil => rfl
  | cons char line ih => rw [setLine, List.length_cons, ih, List.length_cons]

theorem length_setText (corner : Point) (text : List Char) :
    (setText corner text).1.length = glyphCount text := by
  induction text using lines_induction generalizing corner with
  | last line whole =>
      rw [setText_of_line whole, glyphCount_of_line whole]
      exact length_setLine corner _
  | newline line text whole ih =>
      rw [setText_newline whole, glyphCount_newline whole, List.length_append,
        length_setLine, ih]

theorem marked_unreturned (text : List Char) :
    (text ++ [replacement]).getLast? ≠ some '\r' := by
  rw [List.getLast?_concat]
  decide

theorem glyphCount_append (unreturned : text.getLast? ≠ some '\r')
    (more : List Char) :
    glyphCount (text ++ more) = glyphCount text + glyphCount more := by
  induction text using lines_induction with
  | last line whole =>
      obtain ⟨first, others, split⟩ := exists_lines_eq more
      rw [glyphCount_of_line whole, glyphCount, glyphCount,
        lines_append whole split, split, List.map_cons, List.sum_cons,
        List.map_cons, List.sum_cons, trimLine_append unreturned,
        trimLine_eq_self unreturned, List.length_append, Nat.add_assoc]
  | newline line text whole ih =>
      rw [List.append_assoc, List.cons_append, glyphCount_newline whole,
        glyphCount_newline whole, ih (getLast?_newline.not.mp unreturned),
        Nat.add_assoc]

theorem glyphCount_marked (text : List Char) :
    glyphCount (text ++ [replacement]) =
      glyphCount text + 1 +
        if text.getLast? = some '\r' then 1 else 0 := by
  induction text using lines_induction with
  | last line whole =>
      have unbroken : '\n' ∉ line ++ [replacement] :=
        List.not_mem_append whole (by decide)
      rw [glyphCount_of_line unbroken, glyphCount_of_line whole,
        trimLine_eq_self (marked_unreturned line), trimLine_eq,
        List.length_append]
      split_ifs with returned
      · have filled : 0 < line.length := by
          cases line with
          | nil => cases returned
          | cons => exact Nat.zero_lt_succ _
        rw [List.length_dropLast]
        exact congrArg (· + 1) (Nat.sub_add_cancel filled).symm
      · rfl
  | newline line text whole ih =>
      rw [List.append_assoc, List.cons_append, glyphCount_newline whole,
        glyphCount_newline whole, ih]
      simp only [getLast?_newline]
      omega

theorem leads_lineEnd (corner : Point) (line : List Char) :
    corner.Leads (lineEnd corner line) :=
  ⟨Int.le_add_of_nonneg_right
      (Int.mul_nonneg (Int.natCast_nonneg _) (Int.natCast_nonneg _)), le_rfl⟩

theorem leads_nextLine (corner : Point) : corner.Leads (nextLine corner) :=
  ⟨le_rfl, Int.le_add_of_nonneg_right (Int.natCast_nonneg _)⟩

theorem leads_of_mem_setLine {corner : Point} {glyph : Glyph}
    (among : glyph ∈ setLine corner line) : corner.Leads glyph.corner := by
  induction line generalizing corner with
  | nil => exact absurd among List.not_mem_nil
  | cons char line ih =>
      rcases List.mem_cons.mp among with rfl | among
      · exact .refl corner
      · have ahead := leads_lineEnd corner [char]
        rw [lineEnd, List.length_singleton, Nat.cast_one, Int.mul_one] at ahead
        exact ahead.trans (ih among)

theorem leads_setText (corner : Point) (text : List Char) :
    (∀ glyph ∈ (setText corner text).1, corner.Leads glyph.corner) ∧
      corner.Leads (setText corner text).2 := by
  induction text using lines_induction generalizing corner with
  | last line whole =>
      rw [setText_of_line whole]
      exact ⟨fun _ => leads_of_mem_setLine, leads_lineEnd corner _⟩
  | newline line text whole ih =>
      obtain ⟨ahead, finish⟩ := ih (nextLine corner)
      have below := leads_nextLine corner
      rw [setText_newline whole]
      refine ⟨fun glyph among => ?_, below.trans finish⟩
      rcases List.mem_append.mp among with among | among
      · exact leads_of_mem_setLine among
      · exact below.trans (ahead glyph among)

theorem exists_setText_newline (corner : Point) (text more : List Char) :
    ∃ start : Point, start.x = corner.x ∧
      (setText corner (text ++ '\n' :: more)).1 =
        (setText corner text).1 ++ (setText start more).1 := by
  induction text using lines_induction generalizing corner with
  | last line whole =>
      refine ⟨nextLine corner, rfl, ?_⟩
      rw [setText_newline whole, setText_of_line whole]
  | newline line text whole ih =>
      obtain ⟨start, column, sets⟩ := ih (nextLine corner)
      refine ⟨start, column, ?_⟩
      rw [List.append_assoc, List.cons_append, setText_newline whole,
        setText_newline whole, sets, List.append_assoc]

theorem exists_setText_eq (marks : ∃ line ∈ lines text, trimLine line ≠ [])
    (corner : Point) :
    ∃ glyph others, (setText corner text).1 = glyph :: others ∧
      glyph.corner.x = corner.x := by
  induction text using lines_induction generalizing corner with
  | last line whole =>
      rw [lines_of_line whole] at marks
      obtain ⟨_, among, filled⟩ := marks
      obtain rfl := List.mem_singleton.mp among
      obtain ⟨char, chars, trimmed⟩ := List.exists_cons_of_ne_nil filled
      rw [setText_of_line whole, trimmed]
      exact ⟨_, _, rfl, rfl⟩
  | newline line text whole ih =>
      rw [setText_newline whole]
      cases trimmed : trimLine line with
      | cons char chars => exact ⟨_, _, rfl, rfl⟩
      | nil =>
          rw [lines_newline whole] at marks
          obtain ⟨behind, among, filled⟩ := marks
          rcases List.mem_cons.mp among with rfl | among
          · exact absurd trimmed filled
          · exact ih ⟨behind, among, filled⟩ (nextLine corner)

end Typesetting

end Nucleus
