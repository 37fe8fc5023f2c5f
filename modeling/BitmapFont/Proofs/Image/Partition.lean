import BitmapFont.Image.Atlas
import BitmapFont.Proofs.Glyph.Representation

/-!
Atlases cut into glyphs.

The cells of an atlas lie side by side from the top left corner of the image, so that each
position of the region they cover belongs to one pixel of one glyph. `Atlas.Cut` says what
is cut out of an image. Main facts:

* `MonoImage.fromFn_eq_ofFn`: an image written pixel by pixel holds its picture;
* `Atlas.cellAt_iff`: the cell of a position, by two divisions;
* `Atlas.Holds.sum_countPixels`: no pixel of the region is lost, and none is taken twice;
* `Atlas.import_partitions`: which images can be cut, and what the glyphs are.
-/

namespace BitmapFont

/-! ### Images written pixel by pixel -/

namespace MonoImage

/-- The image with a pixel as the picture `f` has it. -/
def paint (f : ℕ → ℕ → Bool) (image : MonoImage) (p : ℕ × ℕ) : MonoImage :=
  image.setPixel p.1 p.2 (f p.1 p.2)

theorem fromFn_eq_foldl_paint (width height : ℕ) (f : ℕ → ℕ → Bool) :
    fromFn width height f = (Glyph.scan width height).foldl (paint f) (blank width height) := by
  simp only [fromFn, Glyph.scan, List.foldl_flatMap, List.foldl_map, paint]

section
variable {image : MonoImage} (small : image.width * image.height ≤ UInt32.size) (f : ℕ → ℕ → Bool)
include small

theorem paint_eq_modify (p : ℕ × ℕ) :
    paint f image p = image.modify p.1 p.2 fun _ => f p.1 p.2 :=
  setPixel_eq_modify small _

theorem getD_paint (p : ℕ × ℕ) {x y : ℕ} (inside : image.InBounds x y) :
    (paint f image p).getD x y false =
      if (x, y) = p then f x y else image.getD x y false := by
  obtain ⟨column, row⟩ := p
  rw [paint_eq_modify small]
  by_cases same : (x, y) = (column, row)
  · cases same
    rw [Grid.getD_modify _ _ inside, if_pos ⟨rfl, rfl⟩, if_pos rfl]
  · have other : ¬(x = column ∧ y = row) := fun h => same (Prod.ext h.1 h.2)
    rw [if_neg same]
    by_cases target : image.InBounds column row
    · rw [Grid.getD_modify _ _ target, if_neg other]
    · rw [Grid.modify_of_not_inBounds _ target]

/-- Painted positions show the picture, and the others what was there. -/
theorem foldl_paint (positions : List (ℕ × ℕ)) :
    (positions.foldl (paint f) image).width = image.width ∧
    (positions.foldl (paint f) image).height = image.height ∧
    ∀ x y, image.InBounds x y → (positions.foldl (paint f) image).getD x y false =
      if (x, y) ∈ positions then f x y else image.getD x y false := by
  induction positions generalizing image with
  | nil => exact ⟨rfl, rfl, by simp⟩
  | cons p rest ih =>
      have width : (paint f image p).width = image.width := by
        rw [paint_eq_modify small, Grid.width_modify]
      have height : (paint f image p).height = image.height := by
        rw [paint_eq_modify small, Grid.height_modify]
      have small' : (paint f image p).width * (paint f image p).height ≤ UInt32.size := by
        rwa [width, height]
      obtain ⟨restWidth, restHeight, restPixels⟩ := ih small'
      refine ⟨restWidth.trans width, restHeight.trans height, ?_⟩
      intro x y inside
      have inside' : (paint f image p).InBounds x y := by
        unfold Grid.InBounds
        rwa [width, height]
      rw [List.foldl_cons, restPixels x y inside', getD_paint small f p inside]
      by_cases later : (x, y) ∈ rest
      · rw [if_pos later, if_pos (List.mem_cons_of_mem p later)]
      · simp only [List.mem_cons, later, or_false, if_false]

end

/-- An image written pixel by pixel holds its picture. -/
theorem fromFn_eq_ofFn {width height : ℕ} (small : width * height ≤ UInt32.size)
    (f : ℕ → ℕ → Bool) : fromFn width height f = Grid.ofFn width height f := by
  have small' : (blank width height).width * (blank width height).height ≤ UInt32.size := small
  obtain ⟨sameWidth, sameHeight, pixels⟩ := foldl_paint small' f (Glyph.scan width height)
  rw [← fromFn_eq_foldl_paint] at sameWidth sameHeight pixels
  change _ = width at sameWidth
  change _ = height at sameHeight
  refine Grid.ext_cells (b := Grid.ofFn width height f) false sameWidth sameHeight ?_
  rintro x y ⟨column, row⟩
  rw [sameWidth] at column
  rw [sameHeight] at row
  rw [pixels x y ⟨column, row⟩, if_pos (Glyph.mem_scan.mpr ⟨column, row⟩), Grid.getD_ofFn,
    if_pos ⟨column, row⟩]

end MonoImage

namespace Atlas

/-! ### Cells -/

/-- Column `x` and row `y` of the cell of a codepoint are column `u` and row `v` of the
image. -/
structure CellAt (cellWidth cellHeight : UInt8) (u v : ℕ) (codepoint : UInt8) (x y : ℕ) :
    Prop where
  column : x < cellWidth.toNat
  row : y < cellHeight.toNat
  left : codepoint.toNat % 16 * cellWidth.toNat + x = u
  top : codepoint.toNat / 16 * cellHeight.toNat + y = v

/-- The positions that the cells cover. -/
def region (cellWidth cellHeight : UInt8) : Finset (ℕ × ℕ) :=
  Finset.range (16 * cellWidth.toNat) ×ˢ Finset.range (16 * cellHeight.toNat)

/-- The codepoint whose cell holds a position of the region. -/
def codepointAt (cellWidth cellHeight : UInt8) (u v : ℕ) : UInt8 :=
  UInt8.ofNat (v / cellHeight.toNat * 16 + u / cellWidth.toNat)

section
variable {cellWidth cellHeight : UInt8} {u v : ℕ}

theorem mem_region :
    (u, v) ∈ region cellWidth cellHeight ↔
      u < 16 * cellWidth.toNat ∧ v < 16 * cellHeight.toNat := by
  simp only [region, Finset.mem_product, Finset.mem_range]

/-- Steps of one size, and what is left of the last of them. -/
theorem step_eq_iff {size step rest n : ℕ} (inside : rest < size) :
    step * size + rest = n ↔ n / size = step ∧ n % size = rest := by
  rw [Nat.div_mod_unique (Nat.zero_lt_of_lt inside), Nat.mul_comm, Nat.add_comm]
  exact (and_iff_left inside).symm

/-- Codepoints number the cells row by row. -/
theorem codepointAt_div_mod (covered : (u, v) ∈ region cellWidth cellHeight) :
    (codepointAt cellWidth cellHeight u v).toNat / 16 = v / cellHeight.toNat ∧
      (codepointAt cellWidth cellHeight u v).toNat % 16 = u / cellWidth.toNat := by
  obtain ⟨column, row⟩ := mem_region.mp covered
  have columns : u / cellWidth.toNat < 16 := Nat.div_lt_of_lt_mul (by rwa [Nat.mul_comm])
  have rows : v / cellHeight.toNat < 16 := Nat.div_lt_of_lt_mul (by rwa [Nat.mul_comm])
  have fits : v / cellHeight.toNat * 16 + u / cellWidth.toNat < 2 ^ 8 := by omega
  rw [← step_eq_iff columns, codepointAt, UInt8.toNat_ofNat', Nat.mod_eq_of_lt fits]

/-- The cell of a position is found by dividing by the size of a cell. -/
theorem cellAt_iff {codepoint : UInt8} {x y : ℕ} :
    CellAt cellWidth cellHeight u v codepoint x y ↔
      (u, v) ∈ region cellWidth cellHeight ∧ codepoint = codepointAt cellWidth cellHeight u v ∧
        x = u % cellWidth.toNat ∧ y = v % cellHeight.toNat := by
  constructor
  · rintro ⟨column, row, left, top⟩
    have covered : (u, v) ∈ region cellWidth cellHeight := by
      have lastColumn : codepoint.toNat % 16 + 1 ≤ 16 := Nat.mod_lt _ (by decide)
      have lastRow : codepoint.toNat / 16 + 1 ≤ 16 := by
        have := codepoint.toNat_lt
        omega
      have columns := Nat.mul_le_mul_right cellWidth.toNat lastColumn
      have rows := Nat.mul_le_mul_right cellHeight.toNat lastRow
      rw [Nat.add_mul] at columns rows
      rw [mem_region]
      omega
    obtain ⟨acrossCells, across⟩ := (step_eq_iff column).mp left
    obtain ⟨downCells, down⟩ := (step_eq_iff row).mp top
    obtain ⟨cellRow, cellColumn⟩ := codepointAt_div_mod covered
    refine ⟨covered, UInt8.toNat_inj.mp ?_, across.symm, down.symm⟩
    omega
  · rintro ⟨covered, rfl, rfl, rfl⟩
    obtain ⟨column, row⟩ := mem_region.mp covered
    obtain ⟨cellRow, cellColumn⟩ := codepointAt_div_mod covered
    have across : u % cellWidth.toNat < cellWidth.toNat := Nat.mod_lt _ (by omega)
    have down : v % cellHeight.toNat < cellHeight.toNat := Nat.mod_lt _ (by omega)
    exact ⟨across, down, (step_eq_iff across).mpr ⟨cellColumn.symm, rfl⟩,
      (step_eq_iff down).mpr ⟨cellRow.symm, rfl⟩⟩

/-- The region is the disjoint union of the cells. -/
theorem mem_region_iff_existsUnique :
    (u, v) ∈ region cellWidth cellHeight ↔
      ∃! cell : UInt8 × ℕ × ℕ, CellAt cellWidth cellHeight u v cell.1 cell.2.1 cell.2.2 := by
  simp only [cellAt_iff]
  constructor
  · intro covered
    refine ⟨(codepointAt cellWidth cellHeight u v, u % cellWidth.toNat, v % cellHeight.toNat),
      ⟨covered, rfl, rfl, rfl⟩, ?_⟩
    rintro ⟨codepoint, x, y⟩ ⟨-, rfl, rfl, rfl⟩
    rfl
  · rintro ⟨cell, ⟨covered, -⟩, -⟩
    exact covered

end

/-! ### Cutting -/

/-- Cells without pixels, or more than the image has room for. -/
def Refused (image : MonoImage) (cellWidth cellHeight : UInt8) : Prop :=
  cellWidth = 0 ∨ cellHeight = 0 ∨ image.width < 16 * cellWidth.toNat ∨
    image.height < 16 * cellHeight.toNat

/-- The cells of an image hold the glyphs of a sequence. -/
structure Holds (image : MonoImage) (cellWidth cellHeight : UInt8) (s : Sequence) : Prop where
  height : s.height = cellHeight
  codepoint : ∀ c, (s.glyph c).codepoint = c
  width : ∀ c, (s.glyph c).width = cellWidth
  pixel : ∀ (c : UInt8) (x y : ℕ), x < cellWidth.toNat → y < cellHeight.toNat →
    (s.glyph c).pixel x y =
      image.getD (c.toNat % 16 * cellWidth.toNat + x) (c.toNat / 16 * cellHeight.toNat + y) false

/-- A sequence that is cut out of an image. -/
structure Cut (image : MonoImage) (cellWidth cellHeight : UInt8) (s : Sequence) : Prop
    extends Holds image cellWidth cellHeight s where
  pointSize : s.pointSize = cellHeight
  baseline : s.baseline.toNat = cellHeight.toNat - 2

/-- The set pixels of an image in the region. -/
def inkIn (image : MonoImage) (cellWidth cellHeight : UInt8) : Finset (ℕ × ℕ) :=
  (region cellWidth cellHeight).filter fun p => image.getD p.1 p.2 false = true

section
variable {image : MonoImage} {cellWidth cellHeight : UInt8}

theorem importSequence_of_refused (refused : Refused image cellWidth cellHeight) :
    ∃ cause, importSequence image cellWidth cellHeight = .error cause := by
  unfold importSequence
  by_cases empty : cellWidth = 0 ∨ cellHeight = 0
  · exact ⟨_, if_pos empty⟩
  · have tooSmall : image.width < 16 * cellWidth.toNat ∨ image.height < 16 * cellHeight.toNat :=
      (or_assoc.mpr refused).resolve_left empty
    exact ⟨_, (if_neg empty).trans (if_pos tooSmall)⟩

/-- Cells that the image has room for are cut out of it. -/
theorem exists_importSequence (small : image.width * image.height ≤ UInt32.size)
    (fits : ¬Refused image cellWidth cellHeight) :
    ∃ s, importSequence image cellWidth cellHeight = .ok s ∧ Cut image cellWidth cellHeight s := by
  rw [Refused, ← or_assoc, not_or] at fits
  obtain ⟨nonempty, roomy⟩ := fits
  obtain ⟨width_pos, height_pos⟩ := not_or.mp nonempty
  rw [← ne_eq, ← toNat_pos_iff] at width_pos height_pos
  obtain ⟨s, made, height, baseline, pointSize, cells⟩ := Sequence.exists_ofGlyphs cellHeight
    (baselineOf_lt height_pos) (f := cell image cellWidth cellHeight) (fun _ => rfl)
    fun _ => atLeastOne_of_pos height_pos
  refine ⟨s, (if_neg nonempty).trans ((if_neg roomy).trans made),
    ⟨height, s.glyph_codepoint, ?_, ?_⟩, pointSize, ?_⟩
  · intro c
    rw [cells]
    exact atLeastOne_of_pos width_pos
  · intro c x y column row
    rw [cells, cell, Glyph.pixel_fromFn, atLeastOne_of_pos width_pos,
      atLeastOne_of_pos height_pos, decide_eq_true column, decide_eq_true row,
      MonoImage.pixel_eq_getD small]
    rfl
  · rw [baseline, toNat_baselineOf]

theorem importSequence_eq_error_iff (small : image.width * image.height ≤ UInt32.size) :
    (∃ cause, importSequence image cellWidth cellHeight = .error cause) ↔
      Refused image cellWidth cellHeight := by
  constructor
  · rintro ⟨cause, failed⟩
    apply Classical.byContradiction
    intro fits
    obtain ⟨s, made, -⟩ := exists_importSequence small fits
    rw [made] at failed
    cases failed
  · exact importSequence_of_refused

theorem cut_of_importSequence {s : Sequence} (small : image.width * image.height ≤ UInt32.size)
    (made : importSequence image cellWidth cellHeight = .ok s) :
    Cut image cellWidth cellHeight s := by
  have fits : ¬Refused image cellWidth cellHeight := by
    intro refused
    obtain ⟨cause, failed⟩ := importSequence_of_refused refused
    rw [made] at failed
    cases failed
  obtain ⟨t, made', cut⟩ := exists_importSequence small fits
  rw [made] at made'
  cases made'
  exact cut

end

/-! ### Glyphs and their cells -/

namespace Holds

variable {image other : MonoImage} {cellWidth cellHeight : UInt8} {s t : Sequence}

theorem inBounds_iff (holds : Holds image cellWidth cellHeight s) {c : UInt8} {x y : ℕ} :
    (s.glyph c).InBounds x y ↔ x < cellWidth.toNat ∧ y < cellHeight.toNat := by
  rw [Glyph.InBounds, holds.width, Sequence.glyph_height, holds.height]

theorem pixel_eq (holds : Holds image cellWidth cellHeight s) {c : UInt8} {u v x y : ℕ}
    (place : CellAt cellWidth cellHeight u v c x y) :
    (s.glyph c).pixel x y = image.getD u v false := by
  rw [holds.pixel c x y place.column place.row, place.left, place.top]

theorem mem_ink_iff (holds : Holds image cellWidth cellHeight s) {c : UInt8} {u v x y : ℕ}
    (place : CellAt cellWidth cellHeight u v c x y) :
    (x, y) ∈ (s.glyph c).ink ↔ (u, v) ∈ inkIn image cellWidth cellHeight := by
  rw [Glyph.mem_ink, holds.pixel_eq place, inkIn, Finset.mem_filter]
  exact (and_iff_right (cellAt_iff.mp place).1).symm

/-- The ink of a glyph is the ink of its cell. -/
theorem countPixels_eq (holds : Holds image cellWidth cellHeight s) (c : UInt8) :
    (s.glyph c).countPixels =
      {p ∈ inkIn image cellWidth cellHeight |
        codepointAt cellWidth cellHeight p.1 p.2 = c}.card := by
  have fromGlyph : ∀ {x y}, (x, y) ∈ (s.glyph c).ink → CellAt cellWidth cellHeight
      (c.toNat % 16 * cellWidth.toNat + x) (c.toNat / 16 * cellHeight.toNat + y) c x y := by
    intro x y set
    obtain ⟨column, row⟩ := holds.inBounds_iff.mp (Glyph.inBounds_of_pixel (Glyph.mem_ink.mp set))
    exact ⟨column, row, rfl, rfl⟩
  have fromImage : ∀ {u v}, (u, v) ∈ inkIn image cellWidth cellHeight →
      codepointAt cellWidth cellHeight u v = c →
        CellAt cellWidth cellHeight u v c (u % cellWidth.toNat) (v % cellHeight.toNat) := by
    intro u v set same
    exact cellAt_iff.mpr ⟨(Finset.mem_filter.mp set).1, same.symm, rfl, rfl⟩
  rw [Glyph.countPixels_eq_card]
  apply Finset.card_nbij'
    (fun p => (c.toNat % 16 * cellWidth.toNat + p.1, c.toNat / 16 * cellHeight.toNat + p.2))
    (fun p => (p.1 % cellWidth.toNat, p.2 % cellHeight.toNat))
  · rintro ⟨x, y⟩ set
    have place := fromGlyph (Finset.mem_coe.mp set)
    rw [Finset.mem_coe, Finset.mem_filter]
    exact ⟨(holds.mem_ink_iff place).mp set, (cellAt_iff.mp place).2.1.symm⟩
  · rintro ⟨u, v⟩ set
    obtain ⟨set, same⟩ := Finset.mem_filter.mp (Finset.mem_coe.mp set)
    exact (holds.mem_ink_iff (fromImage set same)).mpr set
  · rintro ⟨x, y⟩ set
    obtain ⟨-, -, column, row⟩ := cellAt_iff.mp (fromGlyph (Finset.mem_coe.mp set))
    exact Prod.ext column.symm row.symm
  · rintro ⟨u, v⟩ set
    obtain ⟨set, same⟩ := Finset.mem_filter.mp (Finset.mem_coe.mp set)
    have place := fromImage set same
    exact Prod.ext place.left place.top

/-- No pixel of the region is lost, and none is taken twice. -/
theorem sum_countPixels (holds : Holds image cellWidth cellHeight s) :
    (s.glyphs.toList.map Glyph.countPixels).sum = (inkIn image cellWidth cellHeight).card := by
  have listed : s.glyphs.toList.map Glyph.countPixels =
      (List.range glyphCount).map fun i => (s.glyph (UInt8.ofNat i)).countPixels := by
    apply List.ext_getElem (by simp)
    intro i inside _
    have below : i < glyphCount := by simpa using inside
    simp [Sequence.glyph, Sequence.entry, Nat.mod_eq_of_lt below]
  have numbered : Set.MapsTo (fun p : ℕ × ℕ => (codepointAt cellWidth cellHeight p.1 p.2).toNat)
      (inkIn image cellWidth cellHeight) (Finset.range glyphCount) := by
    rintro ⟨u, v⟩ -
    exact Finset.mem_coe.mpr (Finset.mem_range.mpr (UInt8.toNat_lt _))
  calc (s.glyphs.toList.map Glyph.countPixels).sum
      = ∑ i ∈ Finset.range glyphCount, (s.glyph (UInt8.ofNat i)).countPixels := by
        rw [listed]
        rfl
    _ = ∑ i ∈ Finset.range glyphCount, {p ∈ inkIn image cellWidth cellHeight |
          (codepointAt cellWidth cellHeight p.1 p.2).toNat = i}.card := by
        apply Finset.sum_congr rfl
        intro i inside
        have index : (UInt8.ofNat i).toNat = i := by simpa using inside
        rw [holds.countPixels_eq]
        simp only [← UInt8.toNat_inj, index]
    _ = (inkIn image cellWidth cellHeight).card :=
        (Finset.card_eq_sum_card_fiberwise numbered).symm

/-- Cells of two images that hold the same pixels make the same glyphs. -/
theorem glyph_eq (holds : Holds image cellWidth cellHeight s)
    (holds' : Holds other cellWidth cellHeight t)
    (agree : ∀ u v, (u, v) ∈ region cellWidth cellHeight →
      image.getD u v false = other.getD u v false) (c : UInt8) : s.glyph c = t.glyph c := by
  apply Glyph.ext_pixels
  · rw [holds.codepoint, holds'.codepoint]
  · rw [holds.width, holds'.width]
  · rw [Sequence.glyph_height, Sequence.glyph_height, holds.height, holds'.height]
  · intro x y inside
    obtain ⟨column, row⟩ := holds.inBounds_iff.mp inside
    have place : CellAt cellWidth cellHeight _ _ c x y := ⟨column, row, rfl, rfl⟩
    rw [holds.pixel_eq place, holds'.pixel_eq place]
    exact agree _ _ (cellAt_iff.mp place).1

end Holds

/-- Two sequences cut to one size are equal if and only if the images are equal in the
region. -/
theorem Cut.eq_iff {image other : MonoImage} {cellWidth cellHeight : UInt8} {s t : Sequence}
    (cut : Cut image cellWidth cellHeight s) (cut' : Cut other cellWidth cellHeight t) :
    s = t ↔ ∀ u v, (u, v) ∈ region cellWidth cellHeight →
      image.getD u v false = other.getD u v false := by
  constructor
  · rintro rfl u v covered
    obtain ⟨⟨c, x, y⟩, place, -⟩ := mem_region_iff_existsUnique.mp covered
    rw [← cut.pixel_eq place, cut'.pixel_eq place]
  · intro agree
    apply Sequence.ext_glyphs
    · rw [cut.height, cut'.height]
    · apply UInt8.toNat_inj.mp
      rw [cut.baseline, cut'.baseline]
    · rw [cut.pointSize, cut'.pointSize]
    · exact cut.glyph_eq cut'.toHolds agree

/-! ### Atlases made of glyphs -/

/-- An image whose cells hold a sequence and that has nothing else. -/
structure AtlasOf (image : MonoImage) (cellWidth cellHeight : UInt8) (s : Sequence) : Prop
    extends Holds image cellWidth cellHeight s where
  columns : image.width = 16 * cellWidth.toNat
  rows : image.height = 16 * cellHeight.toNat

/-- The atlas of a sequence whose glyphs all have one width. -/
def sheet (s : Sequence) (cellWidth : UInt8) : MonoImage :=
  .fromFn (16 * cellWidth.toNat) (16 * s.height.toNat) fun u v =>
    (s.glyph (codepointAt cellWidth s.height u v)).pixel (u % cellWidth.toNat)
      (v % s.height.toNat)

section
variable {image : MonoImage} {cellWidth cellHeight : UInt8} {s : Sequence}

/-- The largest atlas has 4080 rows and columns. -/
theorem small_sheet (cellWidth cellHeight : UInt8) :
    16 * cellWidth.toNat * (16 * cellHeight.toNat) ≤ UInt32.size := by
  have wide : 16 * cellWidth.toNat ≤ 4080 := by
    have := cellWidth.toNat_lt
    omega
  have high : 16 * cellHeight.toNat ≤ 4080 := by
    have := cellHeight.toNat_lt
    omega
  exact (Nat.mul_le_mul wide high).trans (by decide)

theorem atlasOf_sheet (widths : ∀ c, (s.glyph c).width = cellWidth) :
    AtlasOf (sheet s cellWidth) cellWidth s.height s := by
  rw [sheet, MonoImage.fromFn_eq_ofFn (small_sheet cellWidth s.height)]
  refine ⟨⟨rfl, s.glyph_codepoint, widths, ?_⟩, rfl, rfl⟩
  intro c x y column row
  have place : CellAt cellWidth s.height _ _ c x y := ⟨column, row, rfl, rfl⟩
  obtain ⟨covered, atCell, across, down⟩ := cellAt_iff.mp place
  rw [Grid.getD_ofFn, if_pos (mem_region.mp covered), ← atCell, ← across, ← down]

theorem AtlasOf.not_refused (atlas : AtlasOf image cellWidth cellHeight s) :
    ¬Refused image cellWidth cellHeight := by
  have width_pos := (s.glyph 0).width_pos
  have height_pos := s.height_pos
  rw [atlas.width] at width_pos
  rw [atlas.height] at height_pos
  rintro (empty | empty | narrow | low)
  · exact toNat_pos_iff.mp width_pos empty
  · exact toNat_pos_iff.mp height_pos empty
  · exact absurd atlas.columns.ge (Nat.not_le.mpr narrow)
  · exact absurd atlas.rows.ge (Nat.not_le.mpr low)

/-- What is cut out of an atlas are the glyphs that it was made of. -/
theorem AtlasOf.importSequence_glyphs (atlas : AtlasOf image cellWidth cellHeight s) :
    ∃ t, importSequence image cellWidth cellHeight = .ok t ∧ t.glyphs = s.glyphs := by
  have small : image.width * image.height ≤ UInt32.size := by
    rw [atlas.columns, atlas.rows]
    exact small_sheet cellWidth cellHeight
  obtain ⟨t, made, cut⟩ := exists_importSequence small atlas.not_refused
  have same := cut.glyph_eq atlas.toHolds fun _ _ _ => rfl
  exact ⟨t, made, Sequence.glyphs_eq_of_glyph_eq same⟩

end

/-- Cells are refused if they have no pixels or the image has no room for them, and cut out
of the image otherwise. Each position of the region that the cells cover is one pixel of one
of them, so that the glyphs have as many set pixels as the region, and two images make the
same sequence if and only if they are equal in the region. Of an atlas made of glyphs of one
width just these glyphs are cut. -/
theorem import_partitions :
    (∀ (image : MonoImage) (cellWidth cellHeight : UInt8),
      image.width * image.height ≤ UInt32.size →
      (∀ x y, image.pixel x y = image.getD x y false) ∧
      ((∃ cause, importSequence image cellWidth cellHeight = .error cause) ↔
        Refused image cellWidth cellHeight) ∧
      (¬Refused image cellWidth cellHeight →
        ∃ s, importSequence image cellWidth cellHeight = .ok s ∧
          Cut image cellWidth cellHeight s ∧
          (s.glyphs.toList.map Glyph.countPixels).sum =
            (inkIn image cellWidth cellHeight).card)) ∧
    (∀ (cellWidth cellHeight : UInt8) (u v : ℕ),
      u < 16 * cellWidth.toNat ∧ v < 16 * cellHeight.toNat ↔
        ∃! cell : UInt8 × ℕ × ℕ, CellAt cellWidth cellHeight u v cell.1 cell.2.1 cell.2.2) ∧
    (∀ (image other : MonoImage) (cellWidth cellHeight : UInt8) (s t : Sequence),
      image.width * image.height ≤ UInt32.size → other.width * other.height ≤ UInt32.size →
      importSequence image cellWidth cellHeight = .ok s →
      importSequence other cellWidth cellHeight = .ok t →
      (s = t ↔ ∀ u v, u < 16 * cellWidth.toNat → v < 16 * cellHeight.toNat →
        image.getD u v false = other.getD u v false)) ∧
    ∀ (s : Sequence) (cellWidth : UInt8), (∀ c, (s.glyph c).width = cellWidth) →
      AtlasOf (sheet s cellWidth) cellWidth s.height s ∧
      ∀ image, AtlasOf image cellWidth s.height s →
        ∃ t, importSequence image cellWidth s.height = .ok t ∧ t.glyphs = s.glyphs := by
  refine ⟨?_, ?_, ?_, ?_⟩
  · intro image cellWidth cellHeight small
    refine ⟨fun _ _ => MonoImage.pixel_eq_getD small, importSequence_eq_error_iff small, ?_⟩
    intro fits
    obtain ⟨s, made, cut⟩ := exists_importSequence small fits
    exact ⟨s, made, cut, cut.sum_countPixels⟩
  · intro cellWidth cellHeight u v
    rw [← mem_region, mem_region_iff_existsUnique]
  · intro image other cellWidth cellHeight s t small small' made made'
    rw [(cut_of_importSequence small made).eq_iff (cut_of_importSequence small' made')]
    simp only [mem_region, and_imp]
  · intro s cellWidth widths
    exact ⟨atlasOf_sheet widths, fun image atlas => atlas.importSequence_glyphs⟩

/-- A picture of slanted stripes. -/
def stripes (u v : ℕ) : Bool :=
  (u + 2 * v) % 3 == 0

/-- Two striped images, one of them larger than its cells. -/
theorem import_partitions_striped :
    (∃ cause, importSequence (Grid.ofFn 16 32 stripes) 0 2 = .error cause) ∧
    ∃ s, importSequence (Grid.ofFn 16 32 stripes) 1 2 = .ok s ∧
      importSequence (Grid.ofFn 17 33 stripes) 1 2 = .ok s ∧
      ∃ t, importSequence (sheet s 1) 1 s.height = .ok t ∧ t.glyphs = s.glyphs := by
  obtain ⟨cuts, -, agreeing, atlases⟩ := import_partitions
  have small : (Grid.ofFn 16 32 stripes).width * (Grid.ofFn 16 32 stripes).height ≤
      UInt32.size := by decide
  have small' : (Grid.ofFn 17 33 stripes).width * (Grid.ofFn 17 33 stripes).height ≤
      UInt32.size := by decide
  obtain ⟨s, made, cut, -⟩ := (cuts (Grid.ofFn 16 32 stripes) 1 2 small).2.2 (by
    unfold Refused
    decide)
  obtain ⟨t, made', -⟩ := (cuts (Grid.ofFn 17 33 stripes) 1 2 small').2.2 (by
    unfold Refused
    decide)
  have same : s = t := by
    apply (agreeing _ _ 1 2 s t small small' made made').mpr
    intro u v column row
    change u < 16 at column
    change v < 32 at row
    rw [Grid.getD_ofFn, Grid.getD_ofFn, if_pos ⟨column, row⟩, if_pos (by omega)]
  obtain ⟨atlas, returned⟩ := atlases s 1 cut.width
  exact ⟨(cuts (Grid.ofFn 16 32 stripes) 0 2 small).2.1.mpr (.inl rfl),
    s, made, same ▸ made', returned _ atlas⟩

end Atlas

end BitmapFont
