import Nucleus.Proofs.Screen.Lettering
import Nucleus.Screen.Drawing

/-!
Broken text.  Bytes are set stretch by stretch, with a mark for each broken
part.  That shows what their lossy decoding shows exactly if no broken part
comes between a carriage return and the end of its line, and nothing is left of
the lines behind the one of the first broken part.
-/

namespace Nucleus

namespace Typesetting

open Utf8

variable {text : List Char} {chunks : List Chunk}

def Glyph.image (glyph : Glyph) : Nat × Point :=
  (Font.cellIndex glyph.char, glyph.corner)

theorem Glyph.points_of_image {first second : Glyph}
    (same : first.image = second.image) : first.points = second.points := by
  obtain ⟨index, corner⟩ := Prod.ext_iff.mp same
  dsimp only [image] at index corner
  unfold points Font.isLit Font.cell
  rw [index, corner]

theorem points_of_images {first second : List Glyph}
    (same : first.map Glyph.image = second.map Glyph.image) :
    first.flatMap Glyph.points = second.flatMap Glyph.points := by
  induction first generalizing second with
  | nil => rw [List.map_eq_nil_iff.mp same.symm]
  | cons glyph first ih =>
      obtain ⟨other, others, rfl, image, images⟩ :=
        List.map_eq_cons_iff.mp same.symm
      rw [List.flatMap_cons, List.flatMap_cons, ih images.symm,
        Glyph.points_of_image image]

/-- No carriage return is parted from its line's end by a broken part, and
nothing is left of the lines behind the one of the first broken part. -/
structure KeepsLines (chunks : List Chunk) : Prop where
  unreturned : ∀ chunk ∈ chunks, chunk.broken = true →
    chunk.text.getLast? ≠ some '\r'
  single : OneLine (chunks.tail.flatMap Chunk.lossy)

theorem keepsLines_iff :
    KeepsLines chunks ↔
      (∀ chunk ∈ chunks, chunk.broken = true →
        chunk.text.getLast? ≠ some '\r') ∧
        OneLine (chunks.tail.flatMap Chunk.lossy) :=
  ⟨fun keeps => ⟨keeps.unreturned, keeps.single⟩,
    fun ⟨unreturned, single⟩ => ⟨unreturned, single⟩⟩

instance : Decidable (KeepsLines chunks) :=
  decidable_of_iff _ keepsLines_iff.symm

theorem keepsLines_of_no_line_end
    (unbroken : '\n' ∉ chunks.flatMap Chunk.lossy)
    (unreturned : '\r' ∉ chunks.flatMap Chunk.lossy) : KeepsLines chunks where
  unreturned := fun chunk among broken last => by
    have within : '\r' ∈ chunk.lossy := by
      rw [Chunk.lossy, if_pos broken]
      exact List.mem_append_left _ (List.mem_of_getLast? last)
    exact unreturned (List.mem_flatMap_of_mem among within)
  single := oneLine_of_line fun newline => by
    obtain ⟨chunk, among, within⟩ := List.mem_flatMap.mp newline
    exact unbroken
      (List.mem_flatMap_of_mem (List.mem_of_mem_tail among) within)

theorem setText_of_ite (corner : Point) (text : List Char) :
    (if text.isEmpty then ([], corner) else setText corner text) =
      setText corner text := by
  split_ifs with empty
  · rw [List.isEmpty_iff.mp empty, setText_nil]
  · rfl

theorem setChunks_last (corner : Point) (text : List Char) :
    setChunks corner [⟨text, false⟩] = (setText corner text).1 := by
  rw [setChunks, setText_of_ite]
  exact (List.append_nil _).trans (List.append_nil _)

theorem setChunks_broken (corner : Point) (text : List Char)
    (rest : List Chunk) :
    setChunks corner (⟨text, true⟩ :: rest) =
      (setText corner text).1 ++
        ⟨'?', (setText corner text).2⟩ ::
          setChunks (lineEnd (setText corner text).2 ['?']) rest := by
  rw [setChunks, setText_of_ite]
  exact List.append_assoc _ _ _

theorem lossy_cons (text : List Char) (rest : List Chunk) :
    (⟨text, true⟩ :: rest : List Chunk).flatMap Chunk.lossy =
      text ++ replacement :: rest.flatMap Chunk.lossy := by
  simp [Chunk.lossy]

theorem KeepsLines.of_broken (keeps : KeepsLines (⟨text, true⟩ :: chunks)) :
    text.getLast? ≠ some '\r' ∧ OneLine (chunks.flatMap Chunk.lossy) ∧
      KeepsLines chunks := by
  have single : OneLine (chunks.flatMap Chunk.lossy) := keeps.single
  refine ⟨keeps.unreturned _ List.mem_cons_self rfl, single,
    fun chunk among => keeps.unreturned chunk (List.mem_cons_of_mem _ among), ?_⟩
  cases chunks with
  | nil => exact single
  | cons next rest =>
      rw [List.flatMap_cons] at single
      exact single.of_append

theorem images_of_keepsLines (stretches : Stretches chunks)
    (keeps : KeepsLines chunks) (corner : Point) :
    (setChunks corner chunks).map Glyph.image =
      (setText corner (chunks.flatMap Chunk.lossy)).1.map Glyph.image := by
  induction stretches generalizing corner with
  | none =>
      rw [List.flatMap_nil, setText_nil]
      rfl
  | last text =>
      rw [setChunks_last, List.flatMap_singleton]
      rfl
  | @broken text rest _ ih =>
      obtain ⟨unreturned, single, keeps⟩ := keeps.of_broken
      rw [setChunks_broken, lossy_cons, setText_marked unreturned single,
        List.map_append, List.map_cons, ih keeps, List.map_append]
      rfl

theorem length_setChunks (stretches : Stretches chunks) (corner : Point) :
    (setChunks corner chunks).length +
        chunks.countP (fun chunk =>
          chunk.broken && chunk.text.getLast? == some '\r') =
      glyphCount (chunks.flatMap Chunk.lossy) := by
  induction stretches generalizing corner with
  | none => rfl
  | last text =>
      rw [setChunks_last, length_setText, List.flatMap_singleton]
      rfl
  | @broken text rest _ ih =>
      rw [setChunks_broken, lossy_cons, List.append_cons text,
        glyphCount_append (marked_unreturned text), glyphCount_marked,
        ← ih (lineEnd (setText corner text).2 ['?']), List.countP_cons,
        List.length_append, List.length_cons, length_setText]
      simp only [Bool.true_and, beq_iff_eq]
      omega

theorem leads_setChunks (stretches : Stretches chunks) {corner : Point}
    {glyph : Glyph} (among : glyph ∈ setChunks corner chunks) :
    corner.Leads glyph.corner := by
  induction stretches generalizing corner with
  | none => exact absurd among List.not_mem_nil
  | last text =>
      rw [setChunks_last] at among
      exact (leads_setText corner text).1 glyph among
  | broken text _ ih =>
      obtain ⟨ahead, finish⟩ := leads_setText corner text
      rw [setChunks_broken] at among
      rcases List.mem_append.mp among with among | among
      · exact ahead glyph among
      · rcases List.mem_cons.mp among with rfl | among
        · exact finish
        · exact (finish.trans (leads_lineEnd _ _)).trans (ih among)

theorem columns_of_images {first second : List Glyph}
    (same : first.map Glyph.image = second.map Glyph.image) :
    first.map (·.corner.x) = second.map (·.corner.x) := by
  have columns := congrArg (List.map fun image => image.2.x) same
  rwa [List.map_map, List.map_map] at columns

theorem mem_of_append_eq {columns others before after : List Int}
    {column : Int} (same : columns ++ others = before ++ column :: after)
    (shorter : columns.length ≤ before.length) : column ∈ others := by
  rcases List.append_eq_append_iff.mp same with
    ⟨between, rfl, rfl⟩ | ⟨between, rfl, split⟩
  · exact List.mem_append_right _ List.mem_cons_self
  · cases between with
    | nil =>
        rw [List.nil_append] at split
        exact split ▸ List.mem_cons_self
    | cons column between =>
        rw [List.length_append, List.length_cons] at shorter
        omega

/-- A newline behind a broken part leads to where its stretch began, and not
to where the text did. -/
theorem oneLine_of_images {rest : List Chunk} (stretches : Stretches rest)
    {corner : Point}
    (same : (setChunks corner (⟨text, true⟩ :: rest)).map Glyph.image =
      (setText corner (text ++ replacement :: rest.flatMap Chunk.lossy)).1.map
        Glyph.image) :
    OneLine (rest.flatMap Chunk.lossy) := by
  by_contra apart
  obtain ⟨first, behind, split, marks⟩ := exists_newline_of_not_oneLine apart
  obtain ⟨start, column, sets⟩ := exists_setText_newline corner
    (text ++ [replacement] ++ first) behind
  obtain ⟨glyph, others, begins, back⟩ := exists_setText_eq marks start
  -- The first glyph behind the newline follows more glyphs than the stretch
  -- has up to its mark, so that it is one of those behind the mark.
  have among : glyph.corner.x ∈
      (setChunks (lineEnd (setText corner text).2 ['?']) rest).map
        (·.corner.x) := by
    rw [split, List.append_cons, ← List.append_assoc, sets, begins,
      setChunks_broken, List.append_cons] at same
    have columns := columns_of_images same
    simp only [List.map_append, List.map_cons, List.map_nil] at columns
    refine mem_of_append_eq columns ?_
    rw [List.length_append, List.length_map, List.length_map, length_setText,
      length_setText, glyphCount_append (marked_unreturned text),
      glyphCount_marked, List.length_singleton]
    omega
  obtain ⟨other, among, level⟩ := List.mem_map.mp among
  have ahead := (leads_setChunks stretches among).1
  have finish := (leads_setText corner text).2.1
  simp only [lineEnd, Font.cellWidth, List.length_singleton] at ahead
  omega

/-- And only there do they. -/
theorem keepsLines_of_images (stretches : Stretches chunks) {corner : Point}
    (same : (setChunks corner chunks).map Glyph.image =
      (setText corner (chunks.flatMap Chunk.lossy)).1.map Glyph.image) :
    KeepsLines chunks where
  unreturned := by
    have lost := length_setChunks stretches corner
    have lengths := congrArg List.length same
    rw [List.length_map, List.length_map, length_setText] at lengths
    rw [lengths, Nat.add_eq_left, List.countP_eq_zero] at lost
    intro chunk among broken returned
    exact lost chunk among (by rw [broken, returned]; rfl)
  single := by
    cases stretches with
    | none | last => exact oneLine_of_line List.not_mem_nil
    | broken text rest =>
        rw [lossy_cons] at same
        exact oneLine_of_images rest same

theorem setBytes_encode (text : List Char) :
    setBytes (encode text) = (setText Point.origin text).1 := by
  rw [setBytes, chunks_encode]
  split_ifs with empty
  · rw [List.isEmpty_iff.mp empty, setText_nil]
    rfl
  · exact setChunks_last _ _

/-- Bytes show what their lossy decoding shows exactly if they keep its lines,
and then both draw the same. -/
theorem drawn_lossily (bytes : List UInt8) :
    ((setBytes bytes).map Glyph.image =
        (setBytes (encode (lossy bytes))).map Glyph.image ↔
      KeepsLines (Utf8.chunks bytes)) ∧
      (KeepsLines (Utf8.chunks bytes) →
        ∀ (raster : Raster) (corner : Point) (scale : Nat) (colour : UInt32),
          raster.drawText corner bytes scale colour =
            raster.drawText corner (encode (lossy bytes)) scale colour) := by
  have stretches := stretches_chunks bytes
  rw [setBytes_encode, setBytes, lossy_eq]
  refine ⟨⟨keepsLines_of_images stretches,
    fun keeps => images_of_keepsLines stretches keeps _⟩,
    fun keeps raster corner scale colour => ?_⟩
  have lit : litPoints bytes = litPoints (encode (lossy bytes)) := by
    rw [litPoints, litPoints, setBytes_encode]
    exact points_of_images (images_of_keepsLines stretches keeps _)
  rw [Raster.drawText, Raster.drawText, lit]
  rfl

/-- Two lines, with a broken part in the second one. -/
theorem drawn_lossily_on_the_last_line :
    let bytes : List UInt8 := [0x61, 0x0a, 0x62, 0xff, 0x63, 0x0d, 0x0a]
    let raster := Raster.ofBox ⟨0, 0, 64, 32⟩
    KeepsLines (Utf8.chunks bytes) ∧
      (Utf8.chunks bytes).any (·.broken) = true ∧
      raster.drawText Point.origin bytes 1 0xff =
        raster.drawText Point.origin (encode (lossy bytes)) 1 0xff := by
  intro bytes raster
  have keeps : KeepsLines (Utf8.chunks bytes) := by decide +kernel
  exact ⟨keeps, by decide +kernel, (drawn_lossily bytes).2 keeps _ _ _ _⟩

/-- Behind a broken part a newline leads to the mark's right, and a carriage
return before one is dropped. -/
theorem drawn_otherwise_around_broken_parts :
    let raster := Raster.ofBox ⟨0, 0, 1, 1⟩
    let newline : List UInt8 := [0xff, 0x0a, 0x61]
    let returned : List UInt8 := [0x61, 0x0d, 0xff]
    raster.drawText ⟨-2, -18⟩ newline 1 0xff ≠
        raster.drawText ⟨-2, -18⟩ (encode (lossy newline)) 1 0xff ∧
      raster.drawText ⟨-18, -2⟩ returned 1 0xff ≠
        raster.drawText ⟨-18, -2⟩ (encode (lossy returned)) 1 0xff := by
  decide +kernel

end Typesetting

end Nucleus
