import Nucleus.Proofs.Screen.Filling
import Nucleus.Proofs.Screen.Replacement

/-!
Magnified text.  Text is set at the size of the font from the origin on, and
every point it lights becomes a square.  The squares tile the plane, so a pixel
is set exactly if the point whose square it lies in is lit.  Nothing is lit left
of or above the origin, so text that would begin right of or below the screen
does not show.
-/

namespace Nucleus

namespace Typesetting

theorem leads_of_mem_points {glyph : Glyph} {point : Point}
    (lit : point ∈ glyph.points) : glyph.corner.Leads point := by
  obtain ⟨⟨column, row⟩, _, placed⟩ := List.mem_filterMap.mp lit
  dsimp only at placed
  split at placed
  · obtain rfl := Option.some.inj placed
    exact ⟨Int.le_add_of_nonneg_right (Int.natCast_nonneg _),
      Int.le_add_of_nonneg_right (Int.natCast_nonneg _)⟩
  · cases placed

theorem leads_of_mem_litPoints {bytes : List UInt8} {point : Point}
    (lit : point ∈ litPoints bytes) : Point.origin.Leads point := by
  obtain ⟨glyph, among, lit⟩ := List.mem_flatMap.mp lit
  have ahead := leads_setChunks (Utf8.stretches_chunks bytes) among
  exact ahead.trans (leads_of_mem_points lit)

end Typesetting

theorem TextScale.clamp_pos (scale : Nat) : 0 < clamp scale := by
  rw [clamp, largest]
  omega

namespace Raster

variable {raster : Raster} {corner point : Point} {scale : Nat}

/-- The point whose square a point lies in; quotients are rounded down. -/
def unitCell (corner : Point) (scale : Nat) (point : Point) : Point :=
  ⟨(point.x - corner.x) / scale, (point.y - corner.y) / scale⟩

/-- The squares tile the plane. -/
theorem contains_magnified_iff (positive : 0 < scale) {cell : Point} :
    (magnified corner scale cell).contains point = true ↔
      unitCell corner scale point = cell := by
  have positive : (0 : Int) < scale := Int.natCast_pos.mpr positive
  cases cell
  rw [Box.contains_iff, unitCell, Point.mk.injEq,
    Int.ediv_eq_iff_of_pos positive, Int.ediv_eq_iff_of_pos positive]
  simp only [magnified, Box.right, Box.bottom]
  omega

theorem mem_flatMap_magnified_iff (positive : 0 < scale)
    {cells : List Point} :
    point ∈ (cells.flatMap fun cell => (magnified corner scale cell).points) ↔
      unitCell corner scale point ∈ cells := by
  simp only [List.mem_flatMap, Box.mem_points,
    contains_magnified_iff positive, exists_eq_right']

theorem fillAll_eq_setPixels_const (raster : Raster) (points : List Point)
    (area : Point → Box) (colour : UInt32) :
    points.foldl (fun raster point => raster.fillVisible (area point) colour)
        raster =
      raster.setPixels ((points.flatMap fun point => (area point).points).map
        fun point => (point, colour)) := by
  induction points generalizing raster with
  | nil => rfl
  | cons point rest ih =>
      rw [List.foldl_cons, ih, fillVisible_eq_fill,
        fill_eq_setPixels_const fun _ _ => Box.mem_points, List.flatMap_cons,
        List.map_append, setPixels_append]

/-- Nothing of a text shows that begins right of or below the box. -/
theorem unitCell_notMem_litPoints (away : raster.box.isEmpty = true ∨
      raster.box.lastColumn < corner.x ∨ raster.box.lastRow < corner.y)
    (positive : 0 < scale) (inside : raster.box.contains point = true)
    (bytes : List UInt8) :
    unitCell corner scale point ∉ Typesetting.litPoints bytes := by
  intro lit
  have positive : (0 : Int) < scale := Int.natCast_pos.mpr positive
  obtain ⟨ahead, below⟩ := Typesetting.leads_of_mem_litPoints lit
  simp only [unitCell, Point.origin, Int.ediv_nonneg_iff_of_pos positive]
    at ahead below
  rw [Box.contains_iff] at inside
  simp only [Box.isEmpty, Bool.or_eq_true, beq_iff_eq, Box.lastColumn,
    Box.lastRow, Box.right, Box.bottom] at away inside
  omega

/-- Text that is passed over for where it begins would have set no pixel. -/
theorem drawText_eq_setPixels (raster : Raster) (corner : Point)
    (bytes : List UInt8) (scale : Nat) (colour : UInt32) :
    raster.drawText corner bytes scale colour =
      raster.setPixels (((Typesetting.litPoints bytes).flatMap fun cell =>
        (magnified corner (TextScale.clamp scale) cell).points).map
          fun point => (point, colour)) := by
  have positive := TextScale.clamp_pos scale
  rw [drawText]
  split
  · rename_i away
    refine (setPixels_of_missed (fun point inside => ?_) colour).symm
    rw [mem_flatMap_magnified_iff positive]
    exact unitCell_notMem_litPoints away positive inside bytes
  · exact fillAll_eq_setPixels_const raster _ _ colour

theorem sound_ofBox (box : Box) : (ofBox box).Sound where
  whole := Nat.mul_mod_left box.width 4
  wide := le_rfl
  long := by
    simp only [ofBox, zeroed, Array.size_replicate,
      Nat.mul_div_cancel _ (Nat.zero_lt_succ 3)]
    exact Nat.le_max_right _ _

/-- Text shows a pixel exactly if the unit cell is lit that the pixel lies in,
and all else keeps its value.  Nothing that would show is dropped where the text
begins right of or below the box. -/
theorem text_magnified (raster : Raster) (sound : raster.Sound)
    (corner : Point) (bytes : List UInt8) (scale : Nat) (colour : UInt32) :
    let drawn := raster.drawText corner bytes scale colour
    let cellOf := unitCell corner (TextScale.clamp scale)
    (∀ point, raster.box.contains point = true →
      drawn.wordAt? point =
        if cellOf point ∈ Typesetting.litPoints bytes then
          some (raster.order.encode colour)
        else raster.wordAt? point) ∧
    (∀ index, raster.Hidden index →
      drawn.words[index]? = raster.words[index]?) ∧
    (raster.box.isEmpty = true ∨ raster.box.lastColumn < corner.x ∨
        raster.box.lastRow < corner.y →
      ∀ point, raster.box.contains point = true →
        cellOf point ∉ Typesetting.litPoints bytes) := by
  intro drawn cellOf
  have positive := TextScale.clamp_pos scale
  have set := drawText_eq_setPixels raster corner bytes scale colour
  refine ⟨fun point inside => ?_, fun index hidden => ?_,
    fun away point inside =>
      unitCell_notMem_litPoints away positive inside bytes⟩
  · simp only [drawn, set, sound.wordAt?_setPixels inside,
      mem_flatMap_magnified_iff positive, cellOf]
  · simp only [drawn, set, getElem?_setPixels_of_hidden hidden]

/-- A broken part and a line behind it at twice their size, with the first line
half above a box that begins left of the origin. -/
theorem text_magnified_at_an_edge :
    let raster := ofBox ⟨-2, -1, 40, 40⟩
    let corner : Point := ⟨-3, -12⟩
    let bytes : List UInt8 := [0xff, 0x0a, 0x69]
    let drawn := raster.drawText corner bytes 2 0xabcdef
    raster.Sound ∧ drawn.words.toList.countP (· = 0xabcdef) = 66 ∧
      ∀ point, raster.box.contains point = true →
        drawn.wordAt? point =
          if unitCell corner (TextScale.clamp 2) point ∈
              Typesetting.litPoints bytes then
            some (raster.order.encode 0xabcdef)
          else raster.wordAt? point := by
  intro raster corner bytes drawn
  have sound : raster.Sound := sound_ofBox _
  exact ⟨sound, by decide +kernel,
    (text_magnified raster sound corner bytes 2 0xabcdef).1⟩

end Raster

end Nucleus
