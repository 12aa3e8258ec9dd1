import Nucleus.Proofs.Screen.Clipping
import Nucleus.Proofs.Screen.Pixels

/-!
Filled areas.  Pixels of one colour may be set in any order, and more than once:
only which points are set matters.  So an area that is filled at once looks as
if its points had been set one by one, and where the memory has a word of its
own for every point, exactly those words change.
-/

namespace Nucleus

namespace Raster

variable {raster : Raster} {points others : List Point} {area : Box}
  {point : Point} {index : Nat}

theorem getElem?_writeWords_const (words : Array UInt32) (indices : List Nat)
    (word : UInt32) (index : Nat) :
    (writeWords words (indices.map fun place => (place, word)))[index]? =
      if index ∈ indices then words[index]?.map fun _ => word
      else words[index]? := by
  induction indices generalizing words with
  | nil => exact (if_neg List.not_mem_nil).symm
  | cons place rest ih =>
      rw [List.map_cons, writeWords, List.foldl_cons, ← writeWords, ih,
        writeWord]
      by_cases here : index = place
      · subst here
        have written : (words.setIfInBounds index word)[index]? =
            words[index]?.map fun _ => word := by
          by_cases inside : index < words.size <;> simp [inside]
        rw [written, if_pos List.mem_cons_self, Option.map_map]
        exact ite_self _
      · rw [Array.getElem?_setIfInBounds_ne (Ne.symm here)]
        simp only [List.mem_cons, here, false_or]

theorem setPixels_const_eq (raster : Raster) (points : List Point)
    (colour : UInt32) :
    raster.setPixels (points.map fun point => (point, colour)) =
      { raster with
        words := writeWords raster.words
          (((points.filter raster.box.contains).map raster.indexOf).map
            fun index => (index, raster.order.encode colour)) } := by
  rw [← setPixels_filter, setPixels_eq, List.map_map, List.map_map]
  · rfl
  · intro pixel member
    obtain ⟨point, held, rfl⟩ := List.mem_map.mp member
    exact (List.mem_filter.mp held).2

theorem mem_indices_iff :
    index ∈ (points.filter raster.box.contains).map raster.indexOf ↔
      ∃ point, raster.box.contains point = true ∧ point ∈ points ∧
        raster.indexOf point = index := by
  simp only [List.mem_map, List.mem_filter, and_assoc, and_left_comm]

theorem setPixels_congr (same : ∀ point, raster.box.contains point = true →
      (point ∈ points ↔ point ∈ others)) (colour : UInt32) :
    raster.setPixels (points.map fun point => (point, colour)) =
      raster.setPixels (others.map fun point => (point, colour)) := by
  rw [setPixels_const_eq, setPixels_const_eq]
  congr 1
  apply Array.ext_getElem?
  intro index
  rw [getElem?_writeWords_const, getElem?_writeWords_const]
  have among : index ∈ (points.filter raster.box.contains).map
        raster.indexOf ↔
      index ∈ (others.filter raster.box.contains).map raster.indexOf := by
    rw [mem_indices_iff, mem_indices_iff]
    refine exists_congr fun point => and_congr_right fun inside => ?_
    rw [same point inside]
  simp only [among]

theorem setPixels_of_missed
    (missed : ∀ point, raster.box.contains point = true → point ∉ points)
    (colour : UInt32) :
    raster.setPixels (points.map fun point => (point, colour)) = raster :=
  setPixels_congr (fun point inside =>
    iff_of_false (missed point inside) List.not_mem_nil) colour

/-- An area is filled as if points had been set that are, on the screen, those
of the area. -/
theorem fill_eq_setPixels_const
    (same : ∀ point, raster.box.contains point = true →
      (point ∈ points ↔ area.contains point = true)) (colour : UInt32) :
    raster.fill area colour =
      raster.setPixels (points.map fun point => (point, colour)) := by
  rw [fill_eq_setPixels, Box.shared]
  cases clipped : raster.box.clip? area with
  | none =>
      refine (setPixels_of_missed (fun point inside among => ?_) colour).symm
      exact Box.not_contains_of_clip?_eq_none clipped point
        ⟨inside, (same point inside).mp among⟩
  | some part =>
      apply setPixels_congr
      intro point inside
      rw [Box.mem_points, Box.contains_of_clip? clipped, same point inside]
      exact and_iff_right inside

/-- The memory has a word for every point of the box, row by row. -/
structure Sound (raster : Raster) : Prop where
  whole : raster.stride % 4 = 0
  wide : raster.box.width * 4 ≤ raster.stride
  long : raster.stride / 4 * raster.box.height ≤ raster.words.size

def Hidden (raster : Raster) (index : Nat) : Prop :=
  ∀ point, raster.box.contains point = true → raster.indexOf point ≠ index

theorem indexOf_eq (whole : raster.stride % 4 = 0) (point : Point) :
    raster.indexOf point =
      (point.y - raster.box.top).toNat * (raster.stride / 4) +
        (point.x - raster.box.left).toNat := by
  rw [indexOf, rowStart, Nat.mul_div_assoc _ (Nat.dvd_of_mod_eq_zero whole)]

theorem Sound.offsets (sound : raster.Sound)
    (inside : raster.box.contains point = true) :
    (point.x - raster.box.left).toNat < raster.stride / 4 ∧
      (point.y - raster.box.top).toNat < raster.box.height := by
  have wide := sound.wide
  rw [Box.contains_iff, Box.right, Box.bottom] at inside
  omega

theorem Sound.indexOf_lt (sound : raster.Sound)
    (inside : raster.box.contains point = true) :
    raster.indexOf point < raster.words.size := by
  obtain ⟨across, down⟩ := sound.offsets inside
  rw [indexOf_eq sound.whole]
  calc (point.y - raster.box.top).toNat * (raster.stride / 4) +
        (point.x - raster.box.left).toNat
      < ((point.y - raster.box.top).toNat + 1) * (raster.stride / 4) := by
        rw [Nat.succ_mul]
        omega
    _ ≤ raster.box.height * (raster.stride / 4) :=
        Nat.mul_le_mul_right _ down
    _ = raster.stride / 4 * raster.box.height := Nat.mul_comm _ _
    _ ≤ raster.words.size := sound.long

theorem Sound.eq_of_indexOf_eq (sound : raster.Sound) {other : Point}
    (inside : raster.box.contains point = true)
    (otherInside : raster.box.contains other = true)
    (same : raster.indexOf point = raster.indexOf other) : point = other := by
  have across := (sound.offsets inside).1
  have otherAcross := (sound.offsets otherInside).1
  rw [indexOf_eq sound.whole, indexOf_eq sound.whole] at same
  have columns := congrArg (· % (raster.stride / 4)) same
  have rows := congrArg (· / (raster.stride / 4)) same
  simp only [Nat.mul_add_mod_self_right, Nat.mod_eq_of_lt across,
    Nat.mod_eq_of_lt otherAcross] at columns
  simp only [Nat.mul_comm _ (raster.stride / 4),
    Nat.mul_add_div (Nat.zero_lt_of_lt across), Nat.div_eq_of_lt across,
    Nat.div_eq_of_lt otherAcross] at rows
  rw [Box.contains_iff] at inside otherInside
  cases point
  cases other
  simp only [Point.mk.injEq] at *
  omega

theorem Sound.wordAt?_setPixels (sound : raster.Sound)
    (inside : raster.box.contains point = true) (points : List Point)
    (colour : UInt32) :
    (raster.setPixels
        (points.map fun point => (point, colour))).wordAt? point =
      if point ∈ points then some (raster.order.encode colour)
      else raster.wordAt? point := by
  have shown : raster.words[raster.indexOf point]? ≠ none :=
    Array.getElem?_eq_none_iff.not.mpr (Nat.not_le.mpr (sound.indexOf_lt inside))
  obtain ⟨word, shown⟩ := Option.ne_none_iff_exists'.mp shown
  have among : raster.indexOf point ∈
        (points.filter raster.box.contains).map raster.indexOf ↔
      point ∈ points := by
    rw [mem_indices_iff]
    constructor
    · rintro ⟨other, otherInside, member, same⟩
      rwa [← sound.eq_of_indexOf_eq otherInside inside same]
    · exact fun member => ⟨point, inside, member, rfl⟩
  rw [setPixels_const_eq, wordAt?, wordAt?, if_pos inside, if_pos inside]
  refine (getElem?_writeWords_const raster.words _ _
    (raster.indexOf point)).trans ?_
  simp only [among, shown, Option.map_some]

theorem getElem?_setPixels_of_hidden (hidden : raster.Hidden index)
    (points : List Point) (colour : UInt32) :
    (raster.setPixels
        (points.map fun point => (point, colour))).words[index]? =
      raster.words[index]? := by
  rw [setPixels_const_eq, getElem?_writeWords_const]
  refine if_neg fun among => ?_
  obtain ⟨point, inside, _, same⟩ := mem_indices_iff.mp among
  exact hidden point inside same

end Raster

namespace FramebufferGeometry

variable {geometry : FramebufferGeometry} {words : Array UInt32}
  {area : Box} {colour : UInt32}

theorem sound_raster (valid : geometry.isValid = true)
    (size : geometry.stride / 4 * geometry.height ≤ words.size) :
    (geometry.raster words).Sound := by
  obtain ⟨_, _, _, wide, whole⟩ := isValid_iff.mp valid
  exact ⟨whole, wide, size⟩

theorem hidden_of_not_shows (valid : geometry.isValid = true) {index : Nat}
    (hidden : ¬ geometry.Shows index) :
    (geometry.raster words).Hidden index := by
  rintro point inside rfl
  exact hidden (shows_indexOf valid inside)

theorem contains_pixel {x y : Nat} (across : x < geometry.width)
    (down : y < geometry.height) :
    (geometry.raster words).box.contains ⟨x, y⟩ = true := by
  rw [Box.contains_iff]
  simp only [raster, Raster.ofGeometry, Raster.zeroed, Box.right, Box.bottom]
  omega

theorem wordAt?_pixel (valid : geometry.isValid = true) {x y : Nat}
    (across : x < geometry.width) (down : y < geometry.height) :
    (geometry.raster words).wordAt? ⟨x, y⟩ =
      words[y * (geometry.stride / 4) + x]? := by
  obtain ⟨_, _, _, _, whole⟩ := isValid_iff.mp valid
  rw [Raster.wordAt?, if_pos (contains_pixel across down),
    Raster.indexOf_eq whole]
  simp only [raster, Raster.ofGeometry, Raster.zeroed, Int.sub_zero,
    Int.toNat_natCast]

theorem getElem?_fill (valid : geometry.isValid = true)
    (size : geometry.stride / 4 * geometry.height ≤ words.size) {x y : Nat}
    (across : x < geometry.width) (down : y < geometry.height) (area : Box)
    (colour : UInt32) :
    ((geometry.raster words).fill area colour).words[
        y * (geometry.stride / 4) + x]? =
      if area.contains ⟨x, y⟩ then some (geometry.order.encode colour)
      else words[y * (geometry.stride / 4) + x]? := by
  have filled : (geometry.raster words).fill area colour =
      (geometry.raster words).setPixels
        (area.points.map fun point => (point, colour)) :=
    Raster.fill_eq_setPixels_const (fun _ _ => Box.mem_points) colour
  have drawn : (geometry.raster words).fill area colour =
      geometry.raster ((geometry.raster words).fill area colour).words := by
    rw [filled, Raster.setPixels_const_eq]
    rfl
  have shown := (sound_raster valid size).wordAt?_setPixels
    (contains_pixel across down) area.points colour
  rw [← filled, drawn, wordAt?_pixel valid across down,
    wordAt?_pixel valid across down] at shown
  simp only [Box.mem_points] at shown
  exact shown

/-- A filled rectangle covers exactly the pixels that lie in it.  An area that is
filled at once leaves what its points leave when they are set one by one, as far
as their coordinates reach, and clearing is filling the whole box. -/
theorem areas_filled (geometry : FramebufferGeometry)
    (valid : geometry.isValid = true) (narrow : geometry.width < 2 ^ 31)
    (low : geometry.height < 2 ^ 31) (words : Array UInt32)
    (size : geometry.stride / 4 * geometry.height ≤ words.size)
    (colour : UInt32) :
    let raster := geometry.raster words
    (∀ area : Box,
      (∀ x < geometry.width, ∀ y < geometry.height,
        (raster.draw (.rectangle area colour)).words[
            y * (geometry.stride / 4) + x]? =
          if area.left ≤ x ∧ x < area.left + area.width ∧
              area.top ≤ y ∧ y < area.top + area.height then
            some (geometry.order.encode colour)
          else words[y * (geometry.stride / 4) + x]?) ∧
      ∀ index, ¬ geometry.Shows index →
        (raster.draw (.rectangle area colour)).words[index]? =
          words[index]?) ∧
    (∀ area : Box, raster.fill area colour =
      raster.setPixels ((area.points.filter (·.Fits)).map
        fun point => (point, colour))) ∧
    raster.clear colour = raster.fill raster.box colour := by
  intro raster
  have drawn : ∀ area : Box, raster.draw (.rectangle area colour) =
      raster.fill area colour := fun area =>
    Raster.fillVisible_eq_fill raster area colour
  refine ⟨fun area => ⟨fun x across y down => ?_, fun index hidden => ?_⟩,
    fun area => ?_, ?_⟩
  · rw [drawn, getElem?_fill valid size across down]
    simp only [Box.contains_iff, Box.right, Box.bottom]
  · rw [drawn, Raster.fill_eq_setPixels_const fun _ _ => Box.mem_points]
    exact Raster.getElem?_setPixels_of_hidden
      (hidden_of_not_shows valid hidden) area.points colour
  · -- On the screen no coordinate is out of reach.
    refine Raster.fill_eq_setPixels_const (fun point inside => ?_) colour
    have within : point.Fits := by
      rw [Box.contains_iff] at inside
      simp only [raster, FramebufferGeometry.raster, Raster.ofGeometry,
        Raster.zeroed, Box.right, Box.bottom] at inside
      unfold Point.Fits FitsSigned
      omega
    rw [List.mem_filter, Box.mem_points,
      and_iff_left (decide_eq_true within)]
  · rw [Raster.clear_eq_setPixels, Box.contents]
    exact (Raster.fill_eq_setPixels_const (fun _ _ => Box.mem_points)
      colour).symm

/-- A screen of four by two with a word of padding behind each row, and an area
that hangs over its left and lower edges. -/
theorem areas_filled_over_the_edges :
    let geometry : FramebufferGeometry := ⟨0x1000, 4, 2, 20, .redFirst⟩
    let raster := geometry.raster (Array.replicate 10 7)
    let area : Box := ⟨-1, 1, 3, 9⟩
    geometry.isValid = true ∧ geometry.width < 2 ^ 31 ∧
      geometry.height < 2 ^ 31 ∧
      geometry.stride / 4 * geometry.height ≤ (Array.replicate 10 7).size ∧
      (raster.draw (.rectangle area 0x123456)).words =
        #[7, 7, 7, 7, 7, 0x563412, 0x563412, 7, 7, 7] ∧
      raster.fill area 0x123456 =
        raster.setPixels ((area.points.filter (·.Fits)).map
          fun point => (point, 0x123456)) ∧
      raster.clear 0x123456 = raster.fill raster.box 0x123456 := by
  intro geometry raster area
  have valid : geometry.isValid = true := by decide
  have narrow : geometry.width < 2 ^ 31 := by decide
  have low : geometry.height < 2 ^ 31 := by decide
  have size : geometry.stride / 4 * geometry.height ≤
      (Array.replicate 10 (7 : UInt32)).size := by decide
  have filled := areas_filled geometry valid narrow low _ size 0x123456
  exact ⟨valid, narrow, low, by decide, by decide +kernel, filled.2.1 area,
    filled.2.2⟩

end FramebufferGeometry

end Nucleus
