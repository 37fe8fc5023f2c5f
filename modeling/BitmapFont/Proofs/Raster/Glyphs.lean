import BitmapFont.Raster.BoxEngine

/-!
Rasterized glyphs.

A glyph is framed before it is drawn: its width follows from the box that the engine
reports, so drawing, whether it succeeds or not, decides pixels only. Main facts:

* `Raster.exists_rasterized`: at every size but zero there is a sequence, and its glyphs
  are the rasterized ones;
* `Raster.Rasterized.width`: the width of a glyph is that of its frame;
* `Raster.Rasterized.glyph_of_fails`, `Raster.Rasterized.pixel_of_not_fails`: what becomes
  of a failed and of a finished drawing.
-/

namespace BitmapFont

namespace Raster

/-- A number moved into the range of a byte that is not zero, and stored there. -/
theorem toNat_byte_clamp (n : Int) :
    ((UInt8.ofNat (clamp 1 255 n).toNat).toNat : Int) = max 1 (min n 255) := by
  have stored : (UInt8.ofNat (clamp 1 255 n).toNat).toNat = (clamp 1 255 n).toNat % 256 :=
    UInt8.toNat_ofNat'
  rw [stored]
  unfold clamp
  omega

/-! ### Frames and drawings -/

/-- The frame of the glyph of a codepoint. -/
def frameOf (engine : FontEngine) (size : UInt8) (padded : Bool) (codepoint : UInt8) : Frame :=
  frame (engine.textBounds [charOf codepoint] size) codepoint size padded

/-- What the engine makes of an untouched canvas when it draws a codepoint. -/
def drawing (engine : FontEngine) (size : UInt8) (mode : RenderMode) (padded : Bool)
    (codepoint : UInt8) : Drawing :=
  engine.renderChar (charOf codepoint) size (frameOf engine size padded codepoint).originX
    (depthOf mode)
    (Coverage.blank (frameOf engine size padded codepoint).width.toNat
      (sequenceMetrics engine size).height.toNat)

/-- The engine cannot draw a codepoint. -/
def Fails (engine : FontEngine) (size : UInt8) (mode : RenderMode) (padded : Bool)
    (codepoint : UInt8) : Prop :=
  (drawing engine size mode padded codepoint).failure ≠ none

section
variable {engine : FontEngine} {size height : UInt8} {options : RasterOptions} {padded : Bool}
  {codepoint : UInt8}

theorem frameOf_width_pos : 0 < (frameOf engine size padded codepoint).width.toNat := by
  have stored : ((frameOf engine size padded codepoint).width.toNat : Int) = _ :=
    toNat_byte_clamp _
  omega

theorem sequenceMetrics_height_pos : 0 < (sequenceMetrics engine size).height.toNat :=
  Nat.lt_of_le_of_lt (Nat.zero_le _) (sequenceMetrics engine size).baseline_lt

@[simp] theorem codepoint_rasterizeGlyph :
    (rasterizeGlyph engine size height options codepoint).codepoint = codepoint := by
  unfold rasterizeGlyph
  simp only
  split <;> rfl

/-- Drawing does not change the width, and neither does failing to draw. -/
theorem width_rasterizeGlyph :
    (rasterizeGlyph engine size height options codepoint).width =
      (frameOf engine size options.bearingPadding codepoint).width := by
  have framed : (rasterizeGlyph engine size height options codepoint).width =
      atLeastOne (frameOf engine size options.bearingPadding codepoint).width := by
    unfold rasterizeGlyph
    simp only
    split <;> rfl
  rw [framed, atLeastOne_of_pos frameOf_width_pos]

theorem rasterizeGlyph_of_fails
    (fails : Fails engine size options.mode options.bearingPadding codepoint) :
    rasterizeGlyph engine size (sequenceMetrics engine size).height options codepoint =
      .blank codepoint (frameOf engine size options.bearingPadding codepoint).width
        (sequenceMetrics engine size).height := by
  obtain ⟨cause, failed⟩ := Option.ne_none_iff_exists'.mp fails
  unfold drawing frameOf at failed
  unfold rasterizeGlyph
  simp only
  rw [failed]
  rfl

theorem rasterizeGlyph_of_not_fails
    (drawn : ¬Fails engine size options.mode options.bearingPadding codepoint) :
    rasterizeGlyph engine size (sequenceMetrics engine size).height options codepoint =
      .fromFn codepoint (frameOf engine size options.bearingPadding codepoint).width
        (sequenceMetrics engine size).height fun x y => options.isSet
          ((drawing engine size options.mode options.bearingPadding codepoint).canvas.get x y) := by
  have finished := Classical.not_not.mp drawn
  unfold drawing frameOf at finished
  unfold rasterizeGlyph
  simp only
  rw [finished]
  rfl

end

/-! ### Sequences -/

/-- A sequence as it is rasterized: the line that the engine suggests, and in it every
glyph as it is drawn. -/
structure Rasterized (engine : FontEngine) (size : UInt8) (options : RasterOptions)
    (s : Sequence) : Prop where
  pointSize : s.pointSize = size
  height : s.height = (sequenceMetrics engine size).height
  baseline : s.baseline = (sequenceMetrics engine size).baseline
  glyph : ∀ codepoint, s.glyph codepoint =
    rasterizeGlyph engine size (sequenceMetrics engine size).height options codepoint

/-- Whatever the engine draws, the glyphs form a sequence. -/
theorem exists_rasterized (engine : FontEngine) (options : RasterOptions) {size : UInt8}
    (pos : size ≠ 0) :
    ∃ s, rasterizeSequence engine size options = .ok s ∧ Rasterized engine size options s := by
  have rows : ∀ codepoint, (rasterizeGlyph engine size (sequenceMetrics engine size).height
      options codepoint).height = (sequenceMetrics engine size).height := by
    intro codepoint
    rw [height_rasterizeGlyph]
    exact atLeastOne_of_pos sequenceMetrics_height_pos
  obtain ⟨s, made, height, baseline, pointSize, glyphs⟩ := Sequence.exists_ofGlyphs size
    (sequenceMetrics engine size).baseline_lt (fun _ => codepoint_rasterizeGlyph) rows
  exact ⟨s, (if_neg pos).trans made, pointSize, height, baseline, glyphs⟩

namespace Rasterized
variable {engine : FontEngine} {size : UInt8} {options : RasterOptions} {s : Sequence}
  {codepoint : UInt8}

theorem width (rasterized : Rasterized engine size options s) (codepoint : UInt8) :
    (s.glyph codepoint).width = (frameOf engine size options.bearingPadding codepoint).width := by
  rw [rasterized.glyph, width_rasterizeGlyph]

/-- The pixels of a glyph are those of the canvas that it is drawn on. -/
theorem inBounds_iff (rasterized : Rasterized engine size options s) {x y : Nat} :
    (s.glyph codepoint).InBounds x y ↔
      x < (frameOf engine size options.bearingPadding codepoint).width.toNat ∧
        y < (sequenceMetrics engine size).height.toNat := by
  unfold Glyph.InBounds
  rw [rasterized.width, s.glyph_height, rasterized.height]

/-- A codepoint that cannot be drawn is clear, in its own width. -/
theorem glyph_of_fails (rasterized : Rasterized engine size options s)
    (fails : Fails engine size options.mode options.bearingPadding codepoint) :
    s.glyph codepoint = .blank codepoint
      (frameOf engine size options.bearingPadding codepoint).width s.height := by
  rw [rasterized.glyph, rasterizeGlyph_of_fails fails, rasterized.height]

/-- A codepoint that is drawn shows what is left on the canvas. -/
theorem pixel_of_not_fails (rasterized : Rasterized engine size options s)
    (drawn : ¬Fails engine size options.mode options.bearingPadding codepoint) {x y : Nat}
    (inside : (s.glyph codepoint).InBounds x y) :
    (s.glyph codepoint).pixel x y = options.isSet
      ((drawing engine size options.mode options.bearingPadding codepoint).canvas.get x y) := by
  obtain ⟨column, row⟩ := rasterized.inBounds_iff.mp inside
  rw [rasterized.glyph, rasterizeGlyph_of_not_fails drawn, Glyph.pixel_fromFn,
    atLeastOne_of_pos frameOf_width_pos, atLeastOne_of_pos sequenceMetrics_height_pos]
  simp only [column, row, decide_true, Bool.true_and]

end Rasterized

/-! ### Fonts of boxes -/

/-- A font of boxes cannot draw the characters that it lists. -/
theorem fails_engine_iff {font : BoxFont} {size : UInt8} {mode : RenderMode} {padded : Bool}
    {codepoint : UInt8} :
    Fails font.engine size mode padded codepoint ↔ charOf codepoint ∈ font.failing := by
  unfold Fails drawing BoxFont.engine
  simp only
  by_cases listed : charOf codepoint ∈ font.failing
  · simp [listed]
  · simp [listed]

end Raster

end BitmapFont
