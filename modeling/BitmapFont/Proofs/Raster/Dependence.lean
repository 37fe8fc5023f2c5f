import BitmapFont.Proofs.Font.Storing
import BitmapFont.Proofs.Raster.Metrics

/-!
What a rasterized sequence depends on.

The layout of a sequence, which is its line and the widths of its glyphs, follows from
the metrics and boxes that an engine reports. Pixels follow from what it draws, glyph by
glyph, and a threshold only decides how much of that is kept. Main facts:

* `Raster.sameLayout_of_reports`: equal reports give equal layouts;
* `Raster.thresholds_thin_out`: the mode and the threshold change pixels only, and a
  higher threshold only clears some;
* `Raster.failures_isolated`: an engine that fails at a codepoint loses the pixels of that
  codepoint and nothing else.
-/

namespace BitmapFont

/-- Two sequences that differ in the pixels of their glyphs only. -/
structure Sequence.SameLayout (s t : Sequence) : Prop extends s.SameMetrics t where
  width : ∀ codepoint, (t.glyph codepoint).width = (s.glyph codepoint).width

theorem Sequence.SameLayout.inBounds_iff {s t : Sequence} (layout : s.SameLayout t)
    (codepoint : UInt8) (x y : Nat) :
    (t.glyph codepoint).InBounds x y ↔ (s.glyph codepoint).InBounds x y := by
  unfold Glyph.InBounds
  rw [layout.width, Sequence.glyph_height, Sequence.glyph_height, layout.height]

namespace Raster

variable {size : UInt8}

/-- The options of rendering in shades with a threshold, padded or not. -/
def shadedFrom (padded : Bool) (threshold : UInt8) : RasterOptions where
  mode := .threshold
  threshold := threshold
  bearingPadding := padded

section
variable {engine a b : FontEngine} {options options' : RasterOptions} {s t : Sequence}

theorem sequenceMetrics_congr (metrics : a.verticalMetrics = b.verticalMetrics)
    (bounds : a.textBounds = b.textBounds) : sequenceMetrics a size = sequenceMetrics b size := by
  unfold sequenceMetrics suggestedMetrics
  rw [metrics, bounds]

theorem frameOf_congr (bounds : a.textBounds = b.textBounds) (padded : Bool) (codepoint : UInt8) :
    frameOf a size padded codepoint = frameOf b size padded codepoint := by
  unfold frameOf
  rw [bounds]

/-- The layout is decided by what the engine reports and by the padding. -/
theorem sameLayout_of_reports (metrics : a.verticalMetrics = b.verticalMetrics)
    (bounds : a.textBounds = b.textBounds)
    (padding : options.bearingPadding = options'.bearingPadding)
    (first : Rasterized a size options s) (second : Rasterized b size options' t) :
    s.SameLayout t where
  height := by rw [first.height, second.height, sequenceMetrics_congr metrics bounds]
  baseline := by rw [first.baseline, second.baseline, sequenceMetrics_congr metrics bounds]
  pointSize := second.pointSize.trans first.pointSize.symm
  width := by
    intro codepoint
    rw [first.width, second.width, padding, frameOf_congr bounds]

/-! ### Thresholds -/

/-- A shade above the higher threshold is above the lower one. -/
theorem isSet_of_le {padded : Bool} {low high shade : UInt8} (le : low ≤ high)
    (set : (shadedFrom padded high).isSet shade = true) :
    (shadedFrom padded low).isSet shade = true :=
  decide_eq_true (UInt8.le_trans le (of_decide_eq_true set))

theorem isSet_zero (padded : Bool) (shade : UInt8) : (shadedFrom padded 0).isSet shade = true :=
  decide_eq_true (show (0 : UInt8) ≤ shade from UInt8.zero_le)

/-- A codepoint that cannot be drawn has no pixel set. -/
theorem Rasterized.pixel_of_fails (rasterized : Rasterized engine size options s)
    {codepoint : UInt8} (fails : Fails engine size options.mode options.bearingPadding codepoint)
    (x y : Nat) : (s.glyph codepoint).pixel x y = false := by
  rw [rasterized.glyph_of_fails fails, Glyph.pixel_blank]

/-- Raising the threshold sets no pixel. -/
theorem pixel_of_le {padded : Bool} {low high : UInt8} (le : low ≤ high)
    (first : Rasterized engine size (shadedFrom padded low) s)
    (second : Rasterized engine size (shadedFrom padded high) t) {codepoint : UInt8} {x y : Nat}
    (set : (t.glyph codepoint).pixel x y = true) : (s.glyph codepoint).pixel x y = true := by
  have padding : (shadedFrom padded low).bearingPadding =
      (shadedFrom padded high).bearingPadding := rfl
  have layout : s.SameLayout t := sameLayout_of_reports rfl rfl padding first second
  by_cases fails : Fails engine size .threshold padded codepoint
  · rw [second.pixel_of_fails fails] at set
    cases set
  · have inside := Glyph.inBounds_of_pixel set
    rw [second.pixel_of_not_fails fails inside] at set
    rw [first.pixel_of_not_fails fails ((layout.inBounds_iff codepoint x y).mp inside)]
    exact isSet_of_le le set

end

/-- Rasterized at one size with every choice of options, an engine gives sequences of one
layout for each choice of padding. In shades, a pixel that a threshold sets is set by
every lower one. A threshold of zero fills every glyph that can be drawn, even where
nothing was drawn, and what cannot be drawn is clear at every threshold. -/
theorem thresholds_thin_out (engine : FontEngine) (pos : size ≠ 0) :
    ∃ sequence : RasterOptions → Sequence,
      (∀ options, rasterizeSequence engine size options = .ok (sequence options)) ∧
      (∀ options options', options.bearingPadding = options'.bearingPadding →
        (sequence options).SameLayout (sequence options')) ∧
      (∀ padded low high, low ≤ high → ∀ codepoint x y,
        ((sequence (shadedFrom padded high)).glyph codepoint).pixel x y = true →
          ((sequence (shadedFrom padded low)).glyph codepoint).pixel x y = true) ∧
      (∀ padded codepoint, ¬Fails engine size .threshold padded codepoint → ∀ x y,
        ((sequence (shadedFrom padded 0)).glyph codepoint).InBounds x y →
          ((sequence (shadedFrom padded 0)).glyph codepoint).pixel x y = true) ∧
      ∀ padded codepoint, Fails engine size .threshold padded codepoint → ∀ threshold x y,
        ((sequence (shadedFrom padded threshold)).glyph codepoint).pixel x y = false := by
  have total := fun options => exists_rasterized engine options pos
  choose sequence result rasterized using total
  refine ⟨sequence, result, ?_, ?_, ?_, ?_⟩
  · intro options options' padding
    exact sameLayout_of_reports rfl rfl padding (rasterized options) (rasterized options')
  · intro padded low high le codepoint x y set
    exact pixel_of_le le (rasterized _) (rasterized _) set
  · intro padded codepoint drawn x y inside
    rw [(rasterized (shadedFrom padded 0)).pixel_of_not_fails drawn inside]
    exact isSet_zero padded _
  · intro padded codepoint fails threshold x y
    exact (rasterized (shadedFrom padded threshold)).pixel_of_fails fails x y

/-- `declaringFont` draws `B` and fails at `A`, so of the two only `B` is filled. -/
theorem thresholds_thin_out_declaring :
    ∃ s, rasterizeSequence declaringFont.engine 14 (shadedFrom true 0) = .ok s ∧
      (∀ x y, (s.glyph 66).InBounds x y → (s.glyph 66).pixel x y = true) ∧
      ∀ x y, (s.glyph 65).pixel x y = false := by
  obtain ⟨sequence, result, -, -, filled, clear⟩ :=
    thresholds_thin_out declaringFont.engine (show (14 : UInt8) ≠ 0 by decide)
  have drawn : ¬Fails declaringFont.engine 14 .threshold true 66 := by
    rw [fails_engine_iff]
    decide
  have fails : Fails declaringFont.engine 14 .threshold true 65 := by
    rw [fails_engine_iff]
    decide
  exact ⟨_, result _, filled true 66 drawn, clear true 65 fails 0⟩

/-! ### Failures -/

/-- Two engines that report the same, and draw the same but for some codepoints. -/
structure AgreeExceptAt (apart : Set UInt8) (a b : FontEngine) : Prop where
  verticalMetrics : a.verticalMetrics = b.verticalMetrics
  textBounds : a.textBounds = b.textBounds
  renderChar : ∀ codepoint ∉ apart,
    a.renderChar (charOf codepoint) = b.renderChar (charOf codepoint)

section
variable {apart : Set UInt8} {a b : FontEngine} {options : RasterOptions} {s t : Sequence}

theorem AgreeExceptAt.symm (agree : AgreeExceptAt apart a b) : AgreeExceptAt apart b a where
  verticalMetrics := agree.verticalMetrics.symm
  textBounds := agree.textBounds.symm
  renderChar := fun codepoint outside => (agree.renderChar codepoint outside).symm

/-- Where the engines draw the same, the glyphs are the same. -/
theorem AgreeExceptAt.rasterizeGlyph_eq (agree : AgreeExceptAt apart a b) {codepoint : UInt8}
    (outside : codepoint ∉ apart) (height : UInt8) :
    rasterizeGlyph a size height options codepoint =
      rasterizeGlyph b size height options codepoint := by
  unfold rasterizeGlyph
  simp only
  rw [agree.textBounds, agree.renderChar codepoint outside]

/-- Where an engine fails, the glyph is clear and as wide as the other engine makes it. -/
theorem AgreeExceptAt.glyph_of_fails (agree : AgreeExceptAt apart a b)
    (first : Rasterized a size options s) (second : Rasterized b size options t) {codepoint : UInt8}
    (fails : Fails a size options.mode options.bearingPadding codepoint) :
    s.glyph codepoint = .blank codepoint (t.glyph codepoint).width t.height := by
  have layout := sameLayout_of_reports agree.verticalMetrics agree.textBounds rfl first second
  rw [first.glyph_of_fails fails, ← first.width, layout.width, layout.height]

end

/-- Let two engines report the same and draw the same but for some codepoints, where they
may draw anything or fail after drawing anything. Then their sequences have one layout, the
glyphs of all other codepoints are equal, and a codepoint at which one of them fails has
the clear glyph of the width that the other gives it. -/
theorem failures_isolated {apart : Set UInt8} {a b : FontEngine} (agree : AgreeExceptAt apart a b)
    (pos : size ≠ 0) (options : RasterOptions) :
    ∃ s t, rasterizeSequence a size options = .ok s ∧ rasterizeSequence b size options = .ok t ∧
      s.SameLayout t ∧ (∀ codepoint ∉ apart, s.glyph codepoint = t.glyph codepoint) ∧
      (∀ codepoint, Fails a size options.mode options.bearingPadding codepoint →
        s.glyph codepoint = .blank codepoint (t.glyph codepoint).width t.height) ∧
      ∀ codepoint, Fails b size options.mode options.bearingPadding codepoint →
        t.glyph codepoint = .blank codepoint (s.glyph codepoint).width s.height := by
  obtain ⟨s, resultA, first⟩ := exists_rasterized a options pos
  obtain ⟨t, resultB, second⟩ := exists_rasterized b options pos
  refine ⟨s, t, resultA, resultB, ?_, ?_, ?_, ?_⟩
  · exact sameLayout_of_reports agree.verticalMetrics agree.textBounds rfl first second
  · intro codepoint outside
    rw [first.glyph, second.glyph, sequenceMetrics_congr agree.verticalMetrics agree.textBounds,
      agree.rasterizeGlyph_eq outside]
  · intro codepoint fails
    exact agree.glyph_of_fails first second fails
  · intro codepoint fails
    exact agree.symm.glyph_of_fails second first fails

/-- A font of boxes draws all characters alike but those at which it fails. -/
theorem agreeExceptAt_failing (font : BoxFont) (failing : List Char) :
    AgreeExceptAt {codepoint | charOf codepoint ∈ font.failing ∨ charOf codepoint ∈ failing}
      font.engine { font with failing }.engine where
  verticalMetrics := rfl
  textBounds := rfl
  renderChar := by
    intro codepoint outside
    obtain ⟨able, able'⟩ := not_or.mp outside
    funext size originX depth canvas
    unfold BoxFont.engine
    simp only [if_neg able, if_neg able']
    rfl

/-- `declaringFont` fails at `A`. A font that fails at `C` instead agrees with it on `B`,
and each has clear glyphs of the other's widths where it fails. -/
theorem failures_isolated_declaring :
    ∃ s t, rasterizeSequence declaringFont.engine 14 .default = .ok s ∧
      rasterizeSequence { declaringFont with failing := ['C'] }.engine 14 .default = .ok t ∧
      s.glyph 66 = t.glyph 66 ∧ s.glyph 65 = .blank 65 (t.glyph 65).width t.height ∧
      t.glyph 67 = .blank 67 (s.glyph 67).width s.height := by
  obtain ⟨s, t, resultA, resultB, -, outside, first, second⟩ := failures_isolated
    (agreeExceptAt_failing declaringFont ['C']) (show (14 : UInt8) ≠ 0 by decide) .default
  have able : ¬(charOf 66 ∈ declaringFont.failing ∨ charOf 66 ∈ ['C']) := by decide
  have failsA : Fails declaringFont.engine 14 .oneBit true 65 := by
    rw [fails_engine_iff]
    decide
  have failsC : Fails { declaringFont with failing := ['C'] }.engine 14 .oneBit true 67 := by
    rw [fails_engine_iff]
    decide
  exact ⟨s, t, resultA, resultB, outside 66 able, first 65 failsA, second 67 failsC⟩

end Raster

end BitmapFont
