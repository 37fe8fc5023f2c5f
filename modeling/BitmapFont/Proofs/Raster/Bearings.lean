import BitmapFont.Proofs.Raster.Glyphs
import BitmapFont.Proofs.Raster.Strokes

/-!
Room for bearings.

A padded glyph has a margin of one column on its left, and a positive bearing widens it.
The pen is moved so that the box of the character starts right after the margin, whatever
the sign of its bearing, and the bitmap is widened by as much. Main facts:

* `Raster.get_putAll_of_fills`: what a box of shades leaves on a canvas;
* `Raster.originX_frame`, `Raster.width_frame`: pen and width of a padded glyph;
* `Raster.Rasterized.shows`: every pixel of a glyph is that of its position in the box;
* `Raster.padded_glyphs_seated`: every column of the box has its place in the glyph, and
  is lost only where the width of a glyph ends.
-/

namespace BitmapFont

/-- Strokes that draw a box of shades, moved right by `originX`: every position of the box
is drawn, once or more often, and no other. -/
def Stroke.Fill (strokes : List Stroke) (originX : Int) (box : TextBounds)
    (shade : Int → Int → UInt8) : Prop :=
  ∀ stroke, stroke ∈ strokes ↔
    ∃ x y, box.Contains x y ∧ stroke = { x := originX + x, y, shade := shade x y }

/-- The engine draws every character that it can draw as the box that it reports, in
shades of their own for every character, size and depth. -/
def FontEngine.FillsBoxes (engine : FontEngine)
    (shade : Char → UInt8 → CoverageDepth → Int → Int → UInt8) : Prop :=
  ∀ c size originX depth canvas, (engine.renderChar c size originX depth canvas).failure = none →
    ∃ strokes, Stroke.Fill strokes originX (engine.textBounds [c] size) (shade c size depth) ∧
      (engine.renderChar c size originX depth canvas).canvas = canvas.putAll strokes

/-- Fonts of boxes fill their boxes. -/
theorem BoxFont.fillsBoxes (font : BoxFont) :
    font.engine.FillsBoxes fun _ _ depth => font.ramp.shadeAt depth := by
  intro c size originX depth canvas drawn
  have able : c ∉ font.failing := by
    intro listed
    simp [engine, listed] at drawn
  have single : [c] ≠ Raster.referenceText := by
    intro same
    have lengths : 1 = Raster.referenceText.length := congrArg List.length same
    exact absurd lengths (by decide)
  have bounds : font.engine.textBounds [c] size = font.boxOf c := if_neg single
  refine ⟨(font.boxOf c).positions.map fun p =>
    { x := originX + p.1, y := p.2, shade := font.ramp.shadeAt depth p.1 p.2 }, ?_, ?_⟩
  · intro stroke
    rw [bounds, List.mem_map]
    constructor
    · rintro ⟨⟨x, y⟩, mem, rfl⟩
      exact ⟨x, y, TextBounds.mem_positions.mp mem, rfl⟩
    · rintro ⟨x, y, inside, rfl⟩
      exact ⟨(x, y), TextBounds.mem_positions.mpr inside, rfl⟩
  · unfold engine Coverage.putAll
    simp only [if_neg able]
    rw [List.foldl_map]
    rfl

namespace Raster

/-! ### Boxes on a canvas -/

/-- A box of shades covers the cells that it is moved to and leaves the others
untouched. -/
theorem get_putAll_of_fills {strokes : List Stroke} {originX : Int} {box : TextBounds}
    {shade : Int → Int → UInt8} (fills : Stroke.Fill strokes originX box shade)
    {width height x y : Nat} (column : x < width) (row : y < height) :
    ((Coverage.blank width height).putAll strokes).get x y =
      if box.Contains (x - originX) y then shade (x - originX) y else 0 := by
  have moved : ∀ x' : Int, (x : Int) = originX + x' → x' = x - originX := by
    intro x' place
    omega
  split
  · -- All strokes at this cell come from one position of the box, so they agree in shade.
    rename_i inside
    apply Coverage.get_putAll_blank column row
    · apply (fills _).mpr
      refine ⟨x - originX, y, inside, ?_⟩
      rw [show originX + ((x : Int) - originX) = x by omega]
    · intro stroke mem hx hy
      obtain ⟨x', y', -, rfl⟩ := (fills stroke).mp mem
      simp only at hx hy
      rw [← moved x' hx, hy]
  · rename_i outside
    apply Coverage.get_putAll_blank_of_missed column row
    intro stroke mem hx hy
    obtain ⟨x', y', inside, rfl⟩ := (fills stroke).mp mem
    simp only at hx hy
    rw [← moved x' hx, hy] at outside
    exact outside inside

/-! ### Frames -/

/-- The columns to the left of the box in a padded glyph: one, and a positive bearing. -/
def leftRoom (box : TextBounds) : Nat :=
  box.left.toNat + 1

section
variable {box : TextBounds} {codepoint size : UInt8}

theorem cast_leftRoom (box : TextBounds) : (leftRoom box : Int) = max 0 box.left + 1 := by
  unfold leftRoom
  omega

/-- The pen is moved so that the box starts right after its margin. -/
theorem originX_frame : (frame box codepoint size true).originX = leftRoom box - box.left := by
  rw [cast_leftRoom, Int.max_comm]
  rfl

theorem width_frame : ((frame box codepoint size true).width.toNat : Int) =
    min 255 (leftRoom box + max (max 1 box.width)
      (if codepoint = spaceCodepoint then ((size.toNat / 3 : Nat) : Int) else 0)) := by
  have stored : ((frame box codepoint size true).width.toNat : Int) =
      max 1 (min ((if codepoint = spaceCodepoint then
        max (max box.width 1) ((size.toNat / 3 : Nat) : Int) else max box.width 1) +
          (max box.left 0 + 1)) 255) := toNat_byte_clamp _
  rw [stored, cast_leftRoom]
  by_cases space : codepoint = spaceCodepoint
  · rw [if_pos space, if_pos space]
    omega
  · rw [if_neg space, if_neg space]
    omega

end

/-! ### Glyphs -/

/-- A glyph that shows a box of pixels right after its margin: the columns of the box are
shown as far as the width of the glyph goes, and all else is clear. -/
structure Seated (box : TextBounds) (size : UInt8) (lit : Int → Int → Bool) (g : Glyph) :
    Prop where
  /-- The width is that of margin and box, and that of a space a third of the size at
  least. -/
  width : (g.width.toNat : Int) = min 255 (leftRoom box + max (max 1 box.width)
    (if g.codepoint = spaceCodepoint then ((size.toNat / 3 : Nat) : Int) else 0))
  shown : ∀ k y : Nat, (k : Int) < box.width → box.top ≤ y → (y : Int) < box.bottom →
    leftRoom box + k < g.width.toNat → y < g.height.toNat →
    g.pixel (leftRoom box + k) y = lit (box.left + k) y
  clear : ∀ x y : Nat, (∀ k : Nat, (k : Int) < box.width → box.top ≤ y → (y : Int) < box.bottom →
    x ≠ leftRoom box + k) → g.pixel x y = false
  margin : ∀ x y, x < leftRoom box → g.pixel x y = false
  /-- Below the greatest width no column of the box is lost. -/
  whole : g.width.toNat < 255 → ∀ x y, box.Contains x y → 0 ≤ y → y < g.height.toNat →
    ∃ column : Nat, (column : Int) = leftRoom box + (x - box.left) ∧ column < g.width.toNat ∧
      g.pixel column y.toNat = lit x y

/-- Every pixel of the glyph is that of its position in the box, and clear beside it. -/
def Shows (box : TextBounds) (lit : Int → Int → Bool) (g : Glyph) : Prop :=
  ∀ x y : Nat, g.InBounds x y → g.pixel x y =
    if box.Contains (box.left + (x - leftRoom box)) y then lit (box.left + (x - leftRoom box)) y
    else false

section
variable {box : TextBounds} {lit : Int → Int → Bool} {g : Glyph} {x y k : Nat} {size : UInt8}

theorem Shows.pixel_eq (shows : Shows box lit g) (short : (k : Int) < box.width)
    (below : box.top ≤ y) (above : (y : Int) < box.bottom)
    (inside : g.InBounds (leftRoom box + k) y) :
    g.pixel (leftRoom box + k) y = lit (box.left + k) y := by
  have moved : ((leftRoom box + k : Nat) : Int) - leftRoom box = k := by omega
  have contained : box.Contains (box.left + k) y := by
    unfold TextBounds.width at short
    exact ⟨by omega, by omega, below, above⟩
  rw [shows _ y inside, moved, if_pos contained]

theorem Shows.pixel_eq_false (shows : Shows box lit g)
    (other : ∀ k : Nat, (k : Int) < box.width → box.top ≤ y → (y : Int) < box.bottom →
      x ≠ leftRoom box + k) : g.pixel x y = false := by
  by_cases inside : g.InBounds x y
  · rw [shows x y inside]
    apply if_neg
    rintro ⟨left, right, below, above⟩
    refine other (x - leftRoom box) ?_ below above ?_
    · unfold TextBounds.width
      omega
    · omega
  · exact Bool.eq_false_iff.mpr fun set => inside (Glyph.inBounds_of_pixel set)

theorem Shows.seated (shows : Shows box lit g)
    (width : (g.width.toNat : Int) = min 255 (leftRoom box + max (max 1 box.width)
      (if g.codepoint = spaceCodepoint then ((size.toNat / 3 : Nat) : Int) else 0))) :
    Seated box size lit g where
  width := width
  shown := fun k y short below above column row => shows.pixel_eq short below above ⟨column, row⟩
  clear := fun x y other => shows.pixel_eq_false other
  margin := by
    intro x y left
    apply shows.pixel_eq_false
    intro k _ _ _
    omega
  whole := by
    rintro narrow x y ⟨left, right, below, above⟩ top bottom
    -- Only the greatest width cuts columns off, so the column of `x` is in the glyph.
    obtain ⟨k, offset⟩ := Int.eq_ofNat_of_zero_le (show 0 ≤ x - box.left by omega)
    have short : (k : Int) < box.width := by
      unfold TextBounds.width
      omega
    have column : leftRoom box + k < g.width.toNat := by omega
    have row : y.toNat < g.height.toNat := by omega
    have pixel := shows.pixel_eq short (show box.top ≤ (y.toNat : Int) by omega) (by omega)
      ⟨column, row⟩
    refine ⟨leftRoom box + k, by omega, column, ?_⟩
    rw [pixel, show box.left + (k : Int) = x by omega, show ((y.toNat : Nat) : Int) = y by omega]

end

section
variable {engine : FontEngine} {shade : Char → UInt8 → CoverageDepth → Int → Int → UInt8}
  {size : UInt8} {options : RasterOptions} {s : Sequence} {codepoint : UInt8}

theorem isSet_untouched (cut : options.mode = .oneBit ∨ 0 < options.threshold) :
    options.isSet 0 = false := by
  unfold RasterOptions.isSet
  cases mode : options.mode with
  | oneBit => rfl
  | threshold =>
      rw [mode] at cut
      have above : 0 < options.threshold := cut.resolve_left (by decide)
      exact decide_eq_false (UInt8.not_le.mpr above)

/-- The glyph of a codepoint that can be drawn shows the box that is drawn. -/
theorem Rasterized.shows (rasterized : Rasterized engine size options s)
    (fills : engine.FillsBoxes shade) (padded : options.bearingPadding = true)
    (cut : options.mode = .oneBit ∨ 0 < options.threshold)
    (drawn : ¬Fails engine size options.mode true codepoint) :
    Shows (engine.textBounds [charOf codepoint] size)
      (fun x y => options.isSet (shade (charOf codepoint) size (depthOf options.mode) x y))
      (s.glyph codepoint) := by
  generalize bounds : engine.textBounds [charOf codepoint] size = box
  rw [← padded] at drawn
  intro x y inside
  obtain ⟨column, row⟩ := rasterized.inBounds_iff.mp inside
  obtain ⟨strokes, strokesFill, canvas⟩ := fills _ _ _ _ _ (Classical.not_not.mp drawn)
  have origin : (frameOf engine size options.bearingPadding codepoint).originX =
      leftRoom box - box.left := by
    unfold frameOf
    rw [padded, bounds, originX_frame]
  have place : (x : Int) - (leftRoom box - box.left) = box.left + (x - leftRoom box) := by omega
  rw [origin, bounds] at strokesFill
  rw [rasterized.pixel_of_not_fails drawn inside]
  unfold drawing
  rw [canvas, get_putAll_of_fills strokesFill column row, place]
  split
  · rfl
  · exact isSet_untouched cut

theorem Rasterized.width_padded (rasterized : Rasterized engine size options s)
    (padded : options.bearingPadding = true) {box : TextBounds}
    (bounds : engine.textBounds [charOf codepoint] size = box) :
    ((s.glyph codepoint).width.toNat : Int) = min 255 (leftRoom box + max (max 1 box.width)
      (if (s.glyph codepoint).codepoint = spaceCodepoint then ((size.toNat / 3 : Nat) : Int)
        else 0)) := by
  rw [rasterized.width, Sequence.glyph_codepoint]
  unfold frameOf
  rw [padded, bounds, width_frame]

end

/-- Let an engine draw boxes of shades. Where a shade has to be dark to be shown, padded
glyphs show the boxes of all characters that can be drawn, each after its margin. -/
theorem padded_glyphs_seated {engine : FontEngine}
    {shade : Char → UInt8 → CoverageDepth → Int → Int → UInt8} (fills : engine.FillsBoxes shade)
    {size : UInt8} (pos : size ≠ 0) {options : RasterOptions}
    (padded : options.bearingPadding = true)
    (cut : options.mode = .oneBit ∨ 0 < options.threshold) :
    ∃ s, rasterizeSequence engine size options = .ok s ∧
      ∀ codepoint, ¬Fails engine size options.mode true codepoint →
        Seated (engine.textBounds [charOf codepoint] size) size
          (fun x y => options.isSet (shade (charOf codepoint) size (depthOf options.mode) x y))
          (s.glyph codepoint) := by
  obtain ⟨s, result, rasterized⟩ := exists_rasterized engine options pos
  refine ⟨s, result, ?_⟩
  intro codepoint drawn
  exact (rasterized.shows fills padded cut drawn).seated (rasterized.width_padded padded rfl)

/-- A font of boxes in which `j` reaches two columns to the left of the pen and the space
is two columns wide. -/
def overhangingFont : BoxFont where
  metrics := some { ascent := 9, descent := 3, ascentSlope := 0, descentSlope := 0 }
  reference := { left := 0, top := 0, right := 0, bottom := 0 }
  fallback := { left := 1, top := 2, right := 6, bottom := 9 }
  boxes := [('j', { left := -2, top := 3, right := 3, bottom := 9 }),
    (' ', { left := 0, top := 0, right := 2, bottom := 0 })]
  failing := []
  ramp := { base := 200, slopeX := 10, slopeY := 0 }

/-- The five columns of `j` follow a clear one, though the pen stands in their midst, and
the first two of them are too light to be shown. The space is a third of the size wide. -/
theorem padded_glyphs_seated_overhanging :
    ∃ s, rasterizeSequence overhangingFont.engine 15 (.shaded 200) = .ok s ∧
      (s.glyph 106).width.toNat = 6 ∧ (∀ y, (s.glyph 106).pixel 0 y = false) ∧
      (s.glyph 106).pixel 2 3 = false ∧ (s.glyph 106).pixel 3 3 = true ∧
      (s.glyph 32).width.toNat = 6 := by
  have padded : (RasterOptions.shaded 200).bearingPadding = true := rfl
  obtain ⟨s, result, seated⟩ := padded_glyphs_seated overhangingFont.fillsBoxes
    (show (15 : UInt8) ≠ 0 by decide) padded (.inr (by decide))
  have able : ∀ codepoint, ¬Fails overhangingFont.engine 15 .threshold true codepoint := by
    intro codepoint
    rw [fails_engine_iff]
    exact List.not_mem_nil
  have height : s.height = 12 := by
    obtain ⟨s', result', rasterized⟩ := exists_rasterized overhangingFont.engine (.shaded 200)
      (show (15 : UInt8) ≠ 0 by decide)
    cases result.symm.trans result'
    rw [rasterized.height]
    decide
  have letter := seated 106 (able 106)
  have row : 3 < (s.glyph 106).height.toNat := by
    rw [s.glyph_height, height]
    decide
  have width : (s.glyph 106).width.toNat = 6 := by
    have total := letter.width
    rw [s.glyph_codepoint] at total
    exact Int.ofNat_inj.mp (total.trans (by decide))
  have space : (s.glyph 32).width.toNat = 6 := by
    have total := (seated 32 (able 32)).width
    rw [s.glyph_codepoint] at total
    exact Int.ofNat_inj.mp (total.trans (by decide))
  have light := letter.shown 1 3 (by decide) (by decide) (by decide) (by rw [width]; decide) row
  have dark := letter.shown 2 3 (by decide) (by decide) (by decide) (by rw [width]; decide) row
  refine ⟨s, result, width, ?_, light.trans (by decide), dark.trans (by decide), space⟩
  intro y
  exact letter.margin 0 y (by decide)

end Raster

end BitmapFont
