import Mathlib.Data.List.Basic
import Nucleus.Screen.Drawing

/-!
Drawings as lists of pixels.  Whatever is drawn comes to pixels of the box, set
one after the other, and neither their places nor their colours depend on what
the memory holds.  So every word that is written is one that shows a point of
the box: padding, and memory beyond the last row, is left alone.
-/

namespace Nucleus

namespace Box

def contents (box : Box) (colour : UInt32) : List (Point × UInt32) :=
  box.points.map fun point => (point, colour)

def shared (box area : Box) (colour : UInt32) : List (Point × UInt32) :=
  match box.clip? area with
  | some part => part.contents colour
  | none => []

def pixels (box : Box) : Drawing → List (Point × UInt32)
  | .clear colour => box.contents colour
  | .pixel point colour =>
      if box.contains point then [(point, colour)] else []
  | .line segment colour =>
      match segment.clip? box with
      | some part =>
          (part.points.filter box.contains).map fun point => (point, colour)
      | none => []
  | .rectangle area colour => box.shared area colour
  | .text corner bytes scale colour =>
      if box.isEmpty ∨ box.lastColumn < corner.x ∨ box.lastRow < corner.y then
        []
      else
        (Typesetting.litPoints bytes).flatMap fun point =>
          box.shared (Raster.magnified corner (TextScale.clamp scale) point)
            colour

variable {box area : Box} {pixel : Point × UInt32} {colour : UInt32}

theorem mem_points {point : Point} :
    point ∈ box.points ↔ box.contains point = true := by
  rw [contains_iff, points, List.mem_flatMap]
  constructor
  · rintro ⟨row, rowInside, member⟩
    obtain ⟨column, columnInside, rfl⟩ := List.mem_map.mp member
    rw [List.mem_range] at rowInside columnInside
    simp only [right, bottom]
    omega
  · rintro ⟨leftOf, rightOf, above, below⟩
    simp only [right, bottom] at rightOf below
    refine ⟨(point.y - box.top).toNat, List.mem_range.mpr (by omega),
      List.mem_map.mpr ⟨(point.x - box.left).toNat,
        List.mem_range.mpr (by omega), ?_⟩⟩
    cases point
    simp only [Point.mk.injEq] at *
    omega

theorem contains_of_mem_contents (member : pixel ∈ box.contents colour) :
    box.contains pixel.1 = true := by
  obtain ⟨point, held, rfl⟩ := List.mem_map.mp member
  exact mem_points.mp held

theorem contains_of_mem_shared (member : pixel ∈ box.shared area colour) :
    box.contains pixel.1 = true := by
  unfold shared at member
  split at member
  · rename_i part clipped
    exact ((contains_of_clip? clipped _).mp
      (contains_of_mem_contents member)).1
  · cases member

theorem contains_of_mem_pixels {drawing : Drawing}
    (member : pixel ∈ box.pixels drawing) : box.contains pixel.1 = true := by
  cases drawing with
  | clear colour => exact contains_of_mem_contents member
  | pixel point colour =>
      rw [pixels] at member
      split at member
      · rename_i inside
        rw [List.mem_singleton.mp member]
        exact inside
      · cases member
  | line segment colour =>
      rw [pixels] at member
      split at member
      · obtain ⟨point, held, rfl⟩ := List.mem_map.mp member
        exact (List.mem_filter.mp held).2
      · cases member
  | rectangle area colour => exact contains_of_mem_shared member
  | text corner bytes scale colour =>
      rw [pixels] at member
      split at member
      · cases member
      · obtain ⟨point, _, held⟩ := List.mem_flatMap.mp member
        exact contains_of_mem_shared held

theorem le_of_clip? {part : Box} (clipped : box.clip? area = some part) :
    box.left ≤ part.left ∧ box.top ≤ part.top := by
  unfold clip? at clipped
  dsimp only at clipped
  split at clipped
  · cases clipped
    exact ⟨Int.le_max_right _ _, Int.le_max_right _ _⟩
  · cases clipped

end Box

namespace Raster

variable {raster : Raster}

/-- The word that a pixel sets, and what it sets it to. -/
def writeOf (raster : Raster) (pixel : Point × UInt32) : Nat × UInt32 :=
  (raster.indexOf pixel.1, raster.order.encode pixel.2)

def writeWord (words : Array UInt32) (write : Nat × UInt32) : Array UInt32 :=
  words.setIfInBounds write.1 write.2

def writeWords (words : Array UInt32) (writes : List (Nat × UInt32)) :
    Array UInt32 :=
  writes.foldl writeWord words

theorem setPixel_of_contains {pixel : Point × UInt32}
    (inside : raster.box.contains pixel.1 = true) :
    raster.setPixel pixel.1 pixel.2 = { raster with
      words := writeWord raster.words (raster.writeOf pixel) } := by
  rw [setPixel, if_pos inside]
  rfl

/-- Pixels of the box are words, one for one. -/
theorem setPixels_eq {pixels : List (Point × UInt32)}
    (inside : ∀ pixel ∈ pixels, raster.box.contains pixel.1 = true) :
    raster.setPixels pixels = { raster with
      words := writeWords raster.words (pixels.map raster.writeOf) } := by
  induction pixels generalizing raster with
  | nil => rfl
  | cons pixel rest ih =>
      obtain ⟨here, later⟩ := List.forall_mem_cons.mp inside
      rw [setPixels, List.foldl_cons, setPixel_of_contains here]
      exact ih later

theorem setPixels_append (raster : Raster)
    (first second : List (Point × UInt32)) :
    raster.setPixels (first ++ second) =
      (raster.setPixels first).setPixels second :=
  List.foldl_append

theorem fillSpan_eq (words : Array UInt32) (index : Nat) (word : UInt32)
    (count : Nat) :
    fillSpan words index word count =
      writeWords words ((List.range count).map fun offset =>
        (index + offset, word)) := by
  induction count generalizing words index with
  | zero => rfl
  | succ count ih =>
      rw [fillSpan, ih, List.range_succ_eq_map, List.map_cons, List.map_map,
        writeWords, writeWords, List.foldl_cons]
      congr 1
      apply List.map_congr_left
      intro offset _
      exact congrArg (·, word) (by omega)

theorem fillRows_eq (words : Array UInt32) (stride row column width : Nat)
    (word : UInt32) (count : Nat) :
    fillRows words stride row column width word count =
      writeWords words ((List.range count).flatMap fun above =>
        (List.range width).map fun offset =>
          ((row + above) * stride / 4 + column + offset, word)) := by
  induction count generalizing words row with
  | zero => rfl
  | succ count ih =>
      rw [fillRows, ih, fillSpan_eq, List.range_succ_eq_map,
        List.flatMap_cons, List.flatMap_map, writeWords, writeWords,
        writeWords, List.foldl_append]
      congr 1
      apply List.flatMap_congr
      intro above _
      have next : row + 1 + above = row + above.succ := by omega
      rw [next]

theorem setPixels_contents {part : Box}
    (inside : ∀ point, part.contains point = true →
      raster.box.contains point = true)
    (columns : raster.box.left ≤ part.left)
    (rows : raster.box.top ≤ part.top) (colour : UInt32) :
    raster.setPixels (part.contents colour) = { raster with
      words := fillRows raster.words raster.stride
        (part.top - raster.box.top).toNat (part.left - raster.box.left).toNat
        part.width (raster.order.encode colour) part.height } := by
  rw [setPixels_eq fun pixel member =>
    inside _ (Box.contains_of_mem_contents member), fillRows_eq]
  congr 2
  rw [Box.contents, Box.points, List.map_map, List.map_flatMap]
  apply List.flatMap_congr
  intro row _
  rw [List.map_map]
  apply List.map_congr_left
  intro column _
  have across : (part.left + column - raster.box.left).toNat =
      (part.left - raster.box.left).toNat + column := by omega
  have down : (part.top + row - raster.box.top).toNat =
      (part.top - raster.box.top).toNat + row := by omega
  simp only [Function.comp_apply, writeOf, indexOf, rowStart, across, down,
    Nat.add_assoc]

/-- Filling column by column and row by row fills what the box and the area
share. -/
theorem fill_eq_setPixels (raster : Raster) (area : Box) (colour : UInt32) :
    raster.fill area colour =
      raster.setPixels (raster.box.shared area colour) := by
  have filled : raster.fill area colour =
      match raster.box.clip? area with
      | some part => { raster with
          words := fillRows raster.words raster.stride
            (part.top - raster.box.top).toNat
            (part.left - raster.box.left).toNat part.width
            (raster.order.encode colour) part.height }
      | none => raster := by
    rw [fill, Box.clip?_eq_overlap?]
    cases Box.overlap? raster.box.left raster.box.right area.left
        area.width with
    | none => rfl
    | some columns =>
        cases Box.overlap? raster.box.top raster.box.bottom area.top
          area.height <;> rfl
  rw [filled, Box.shared]
  cases clipped : raster.box.clip? area with
  | none => rfl
  | some part =>
      obtain ⟨columns, rows⟩ := Box.le_of_clip? clipped
      exact (setPixels_contents (fun point held =>
        ((Box.contains_of_clip? clipped point).mp held).1) columns rows
        colour).symm

/-- The two clippers agree: nothing is left to clip for the second one. -/
theorem fillVisible_eq_fill (raster : Raster) (area : Box)
    (colour : UInt32) :
    raster.fillVisible area colour = raster.fill area colour := by
  rw [fillVisible, fill_eq_setPixels, Box.shared]
  cases clipped : raster.box.clip? area with
  | none => rfl
  | some part =>
      dsimp only
      rw [fill_eq_setPixels, Box.shared, Box.clip?_of_clip? clipped]

theorem clear_eq_setPixels (raster : Raster) (colour : UInt32) :
    raster.clear colour = raster.setPixels (raster.box.contents colour) := by
  rw [setPixels_contents (fun _ held => held) (Int.le_refl _)
    (Int.le_refl _), Int.sub_self, Int.sub_self]
  rfl

theorem box_setPixel (raster : Raster) (point : Point) (colour : UInt32) :
    (raster.setPixel point colour).box = raster.box := by
  unfold setPixel
  split <;> rfl

/-- Points outside the box are passed over. -/
theorem setPixels_filter (raster : Raster) (points : List Point)
    (colour : UInt32) :
    raster.setPixels ((points.filter raster.box.contains).map
        fun point => (point, colour)) =
      raster.setPixels (points.map fun point => (point, colour)) := by
  induction points generalizing raster with
  | nil => rfl
  | cons point rest ih =>
      have later := ih (raster.setPixel point colour)
      rw [box_setPixel] at later
      by_cases inside : raster.box.contains point = true
      · rw [List.filter_cons_of_pos inside]
        exact later
      · rw [setPixel, if_neg inside] at later
        rw [List.filter_cons_of_neg inside, later, List.map_cons, setPixels,
          setPixels, List.foldl_cons, setPixel, if_neg inside]

theorem box_setPixels (raster : Raster) (pixels : List (Point × UInt32)) :
    (raster.setPixels pixels).box = raster.box := by
  induction pixels generalizing raster with
  | nil => rfl
  | cons pixel rest ih =>
      exact (ih (raster.setPixel pixel.1 pixel.2)).trans
        (box_setPixel raster pixel.1 pixel.2)

theorem fillAll_eq_setPixels (raster : Raster) (points : List Point)
    (area : Point → Box) (colour : UInt32) :
    points.foldl (fun raster point => raster.fillVisible (area point) colour)
        raster =
      raster.setPixels (points.flatMap fun point =>
        raster.box.shared (area point) colour) := by
  induction points generalizing raster with
  | nil => rfl
  | cons point rest ih =>
      rw [List.foldl_cons, ih, fillVisible_eq_fill, fill_eq_setPixels,
        box_setPixels, List.flatMap_cons, setPixels_append]

theorem draw_eq_setPixels (raster : Raster) (drawing : Drawing) :
    raster.draw drawing = raster.setPixels (raster.box.pixels drawing) := by
  cases drawing with
  | clear colour => exact clear_eq_setPixels raster colour
  | pixel point colour =>
      rw [draw, Box.pixels]
      split
      · rfl
      · rename_i outside
        exact if_neg outside
  | line segment colour =>
      rw [draw, drawLine, Box.pixels]
      cases segment.clip? raster.box with
      | none => rfl
      | some part => exact (setPixels_filter raster part.points colour).symm
  | rectangle area colour =>
      exact (fillVisible_eq_fill raster area colour).trans
        (fill_eq_setPixels raster area colour)
  | text corner bytes scale colour =>
      rw [draw, drawText, Box.pixels]
      split
      · rfl
      · exact fillAll_eq_setPixels raster _ _ colour

def drawAll (raster : Raster) (drawings : List Drawing) : Raster :=
  drawings.foldl draw raster

theorem drawAll_eq_setPixels (raster : Raster) (drawings : List Drawing) :
    raster.drawAll drawings =
      raster.setPixels (drawings.flatMap raster.box.pixels) := by
  induction drawings generalizing raster with
  | nil => rfl
  | cons drawing rest ih =>
      rw [drawAll, List.foldl_cons, ← drawAll, ih, draw_eq_setPixels,
        box_setPixels, List.flatMap_cons, setPixels_append]

def writes (raster : Raster) (drawings : List Drawing) :
    List (Nat × UInt32) :=
  (drawings.flatMap raster.box.pixels).map raster.writeOf

theorem drawAll_eq_writeWords (raster : Raster) (drawings : List Drawing) :
    raster.drawAll drawings = { raster with
      words := writeWords raster.words (raster.writes drawings) } := by
  rw [drawAll_eq_setPixels, setPixels_eq, writes]
  intro pixel member
  obtain ⟨drawing, _, held⟩ := List.mem_flatMap.mp member
  exact Box.contains_of_mem_pixels held

theorem exists_point_of_mem_writes {drawings : List Drawing}
    {write : Nat × UInt32} (member : write ∈ raster.writes drawings) :
    ∃ point, raster.box.contains point = true ∧
      write.1 = raster.indexOf point := by
  obtain ⟨pixel, held, rfl⟩ := List.mem_map.mp member
  obtain ⟨drawing, _, held⟩ := List.mem_flatMap.mp held
  exact ⟨pixel.1, Box.contains_of_mem_pixels held, rfl⟩

theorem getElem?_writeWords {words : Array UInt32}
    {writes : List (Nat × UInt32)} {index : Nat}
    (away : ∀ write ∈ writes, write.1 ≠ index) :
    (writeWords words writes)[index]? = words[index]? := by
  induction writes generalizing words with
  | nil => rfl
  | cons write rest ih =>
      obtain ⟨here, later⟩ := List.forall_mem_cons.mp away
      rw [writeWords, List.foldl_cons, ← writeWords, ih later, writeWord,
        Array.getElem?_setIfInBounds_ne here]

end Raster

namespace FramebufferGeometry

variable {geometry : FramebufferGeometry}

def raster (geometry : FramebufferGeometry) (words : Array UInt32) : Raster :=
  { Raster.ofGeometry geometry with words := words }

/-- The word shows a pixel of the screen. -/
def Shows (geometry : FramebufferGeometry) (index : Nat) : Prop :=
  ∃ x < geometry.width, ∃ y < geometry.height,
    index = y * (geometry.stride / 4) + x

theorem isValid_iff :
    geometry.isValid = true ↔ geometry.base ≠ 0 ∧ geometry.width ≠ 0 ∧
      geometry.height ≠ 0 ∧ geometry.width * 4 ≤ geometry.stride ∧
        geometry.stride % 4 = 0 := by
  simp [isValid, and_assoc]

theorem shows_indexOf (valid : geometry.isValid = true)
    {words : Array UInt32} {point : Point}
    (inside : (geometry.raster words).box.contains point = true) :
    geometry.Shows ((geometry.raster words).indexOf point) := by
  obtain ⟨_, _, _, _, whole⟩ := isValid_iff.mp valid
  rw [Box.contains_iff] at inside
  simp only [raster, Raster.ofGeometry, Raster.zeroed, Box.right, Box.bottom,
    Int.zero_add] at inside
  refine ⟨point.x.toNat, by omega, point.y.toNat, by omega, ?_⟩
  simp only [raster, Raster.ofGeometry, Raster.zeroed, Raster.indexOf,
    Raster.rowStart, Int.sub_zero]
  rw [Nat.mul_div_assoc _ (Nat.dvd_of_mod_eq_zero whole)]

theorem lt_of_shows (valid : geometry.isValid = true) {index : Nat}
    (visible : geometry.Shows index) :
    index < geometry.stride / 4 * geometry.height := by
  obtain ⟨_, _, _, wide, _⟩ := isValid_iff.mp valid
  obtain ⟨x, left, y, above, rfl⟩ := visible
  calc y * (geometry.stride / 4) + x
      < y * (geometry.stride / 4) + geometry.stride / 4 := by omega
    _ = (y + 1) * (geometry.stride / 4) := (Nat.succ_mul _ _).symm
    _ ≤ geometry.height * (geometry.stride / 4) :=
        Nat.mul_le_mul_right _ above
    _ = geometry.stride / 4 * geometry.height := Nat.mul_comm _ _

def writes (geometry : FramebufferGeometry) (drawings : List Drawing) :
    List (Nat × UInt32) :=
  (geometry.raster #[]).writes drawings

theorem shows_of_mem_writes (valid : geometry.isValid = true)
    {drawings : List Drawing} {write : Nat × UInt32}
    (member : write ∈ geometry.writes drawings) :
    geometry.Shows write.1 := by
  obtain ⟨point, inside, index⟩ := Raster.exists_point_of_mem_writes member
  rw [index]
  exact shows_indexOf valid inside

/-- Whatever is drawn on a valid framebuffer comes to the same writes over any
memory.  Each of them lies in the memory and shows a pixel, and all other
words, the padding of the rows among them, keep their values. -/
theorem only_visible_words_written (geometry : FramebufferGeometry)
    (valid : geometry.isValid = true) (words : Array UInt32)
    (size : words.size = geometry.stride / 4 * geometry.height)
    (drawings : List Drawing) :
    (∀ memory, ((geometry.raster memory).drawAll drawings).words =
        Raster.writeWords memory (geometry.writes drawings)) ∧
      (∀ write ∈ geometry.writes drawings,
        geometry.Shows write.1 ∧ write.1 < words.size) ∧
      ∀ index, ¬ geometry.Shows index →
        ((geometry.raster words).drawAll drawings).words[index]? =
          words[index]? := by
  have same : ∀ memory, ((geometry.raster memory).drawAll drawings).words =
      Raster.writeWords memory (geometry.writes drawings) := fun memory =>
    congrArg Raster.words (Raster.drawAll_eq_writeWords _ drawings)
  refine ⟨same, fun write member => ?_, fun index hidden => ?_⟩
  · have visible := shows_of_mem_writes valid member
    rw [size]
    exact ⟨visible, lt_of_shows valid visible⟩
  · rw [same]
    apply Raster.getElem?_writeWords
    rintro write member rfl
    exact hidden (shows_of_mem_writes valid member)

/-- A screen of four by two with a word of padding behind each row, and areas
that reach past its edges. -/
theorem only_visible_words_written_past_the_edges :
    let geometry : FramebufferGeometry := ⟨0x1000, 4, 2, 20, .blueFirst⟩
    let drawings : List Drawing :=
      [.rectangle ⟨2, 1, 4294967295, 4294967295⟩ 0xff,
        .line ⟨⟨-2147483648, 0⟩, ⟨2147483647, 0⟩⟩ 0xff00,
        .pixel ⟨4, 0⟩ 0xff0000]
    geometry.isValid = true ∧
      ((geometry.raster (Array.replicate 10 7)).drawAll drawings).words =
        #[0xff00, 0xff00, 0xff00, 0xff00, 7, 7, 7, 0xff, 0xff, 7] ∧
      (∀ write ∈ geometry.writes drawings,
        geometry.Shows write.1 ∧ write.1 < 10) ∧
      ∀ index, ¬ geometry.Shows index →
        ((geometry.raster (Array.replicate 10 7)).drawAll drawings).words[
          index]? = (Array.replicate 10 (7 : UInt32))[index]? := by
  intro geometry drawings
  have valid : geometry.isValid = true := by decide
  have kept := only_visible_words_written geometry valid
    (Array.replicate 10 7) (by decide) drawings
  exact ⟨valid, by decide +kernel, kept.2.1, kept.2.2⟩

end FramebufferGeometry

end Nucleus
