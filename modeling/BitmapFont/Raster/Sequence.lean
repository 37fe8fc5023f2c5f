import BitmapFont.Raster.Engine
import BitmapFont.Raster.Options
import BitmapFont.Sequence

/-!
Rasterizing a scalable font into sequences.

A font engine reports metrics and boxes and draws shades; the height and baseline
of a sequence, the width of each glyph and its one-bit pixels are derived from
them here. A glyph that the engine cannot draw becomes a clear one of the width
that it would have had.
-/

namespace BitmapFont

namespace Raster

/-! ### Line metrics -/

/-- A text with high and low letters, whose box estimates the line height. -/
def referenceText : List Char :=
  "Agyjpq|".toList

/-- The sizes that a standard import produces. -/
def standardSizes : List UInt8 := [10, 12, 14, 16, 18, 24, 32]

/-- Three quarters of a height, rounded to the nearest integer and a half away
from zero. -/
def threeQuarters (height : Int) : Int :=
  if 0 ≤ height then (3 * height + 2) / 4 else -((3 * -height + 2) / 4)

/-- Height and baseline that a sequence can have. -/
structure LineMetrics where
  height : UInt8
  baseline : UInt8
  baseline_lt : baseline.toNat < height.toNat

/-- The height and baseline that an engine suggests for a size: what the font
declares, else three quarters of the height of the reference text. -/
def suggestedMetrics (engine : FontEngine) (size : UInt8) : Int × Int :=
  match engine.verticalMetrics size with
  | some metrics => (metrics.ascent + metrics.descent, metrics.ascent)
  | none =>
    let box := (engine.textBounds referenceText size).height
    let height := if box < 1 then (size.toNat : Int) else box
    (height, threeQuarters height)

/-- A suggested baseline moved into the line if it lies outside. -/
def repairBaseline (height baseline : Int) : Int :=
  let baseline := if baseline < 1 then threeQuarters height else baseline
  if height ≤ baseline then height - 2 else baseline

/-- A number moved to the nearest end of an interval that it lies outside of. -/
def clamp (low high n : Int) : Int :=
  max low (min n high)

theorem clamp_mem {low high : Int} (h : low ≤ high) (n : Int) :
    low ≤ clamp low high n ∧ clamp low high n ≤ high := by
  unfold clamp; omega

/-- The nearest height and baseline that a sequence can have. -/
def LineMetrics.nearest (height baseline : Int) : LineMetrics :=
  let rows := clamp 1 255 height
  { height := UInt8.ofNat rows.toNat
    baseline := UInt8.ofNat (clamp 0 (rows - 1) baseline).toNat
    baseline_lt := by
      have hr := clamp_mem (show (1 : Int) ≤ 255 by decide) height
      have hb := clamp_mem (show 0 ≤ rows - 1 by omega) baseline
      simp only [UInt8.toNat_ofNat']
      omega }

/-- Height and baseline of a sequence rasterized at a size. -/
def sequenceMetrics (engine : FontEngine) (size : UInt8) : LineMetrics :=
  let (height, baseline) := suggestedMetrics engine size
  .nearest height (repairBaseline height baseline)

/-! ### Glyphs -/

def charOf (codepoint : UInt8) : Char :=
  Char.ofNat codepoint.toNat

/-- How a glyph lies in its bitmap: its total width, and the column of its pen
origin. -/
structure Frame where
  width : UInt8
  originX : Int

/-- The frame of a glyph whose ink fills `bounds`. The space is at least a third
of the size wide, and padding makes room for a bearing on either side. -/
def frame (bounds : TextBounds) (codepoint size : UInt8) (padded : Bool) : Frame :=
  let ink := max bounds.width 1
  let ink := if codepoint = spaceCodepoint then max ink ((size.toNat / 3 : Nat) : Int) else ink
  let padding := if padded then max bounds.left 0 + 1 else 0
  { width := UInt8.ofNat (clamp 1 255 (ink + padding)).toNat
    originX := if padded then padding - bounds.left else 0 }

/-- The shades that a mode asks for. -/
def depthOf : RenderMode → CoverageDepth
  | .oneBit => .oneBit
  | .threshold => .gray

/-- The glyph of a codepoint, clear if the engine cannot draw it. -/
def rasterizeGlyph (engine : FontEngine) (size height : UInt8) (options : RasterOptions)
    (codepoint : UInt8) : Glyph :=
  let c := charOf codepoint
  let frame := frame (engine.textBounds [c] size) codepoint size options.bearingPadding
  let canvas := Coverage.blank frame.width.toNat height.toNat
  let drawing := engine.renderChar c size frame.originX (depthOf options.mode) canvas
  match drawing.failure with
  | some _ => .blank codepoint frame.width height
  | none =>
    .fromFn codepoint frame.width height fun x y => options.isSet (drawing.canvas.get x y)

@[simp] theorem height_rasterizeGlyph (engine : FontEngine) (size height : UInt8)
    (options : RasterOptions) (codepoint : UInt8) :
    (rasterizeGlyph engine size height options codepoint).height = atLeastOne height := by
  unfold rasterizeGlyph
  simp only
  split <;> rfl

/-! ### Sequences -/

/-- All 256 codepoints at a size of at least one. The table of their glyphs is checked
like any other. -/
def rasterizeSequence (engine : FontEngine) (size : UInt8) (options : RasterOptions) :
    Except FontError Sequence :=
  if size = 0 then .error (.argument .zeroPointSize)
  else
    let metrics := sequenceMetrics engine size
    Sequence.ofGlyphs metrics.height metrics.baseline size <|
      Vector.ofFn fun i => rasterizeGlyph engine size metrics.height options (UInt8.ofNat i)

/-- A report made before a size is rasterized. -/
structure Progress where
  index : Nat
  total : Nat
  size : UInt8
deriving DecidableEq

/-- Rasterizes sizes from the one at `index` on, reporting each before it is
started. -/
def rasterizeFrom {m : Type → Type} [Monad m] (engine : FontEngine) (options : RasterOptions)
    (total : Nat) (report : Progress → m Unit) :
    (index : Nat) → (sizes : List UInt8) → ExceptT FontError m (List Sequence)
  | _, [] => pure []
  | index, size :: sizes => do
    report { index, total, size }
    let first ← liftExcept (rasterizeSequence engine size options)
    let rest ← rasterizeFrom engine options total report (index + 1) sizes
    return first :: rest
where
  /-- An outcome without effects. -/
  liftExcept {β : Type} (outcome : Except FontError β) : ExceptT FontError m β :=
    ExceptT.mk (pure outcome)

/-- Rasterizes several sizes in order. All sizes are checked before the first
report. -/
def rasterizeSizes {m : Type → Type} [Monad m] (engine : FontEngine) (sizes : List UInt8)
    (options : RasterOptions) (report : Progress → m Unit) : m (Except FontError (List Sequence)) :=
  if sizes = [] then pure (.error (.argument .noSizes))
  else if 0 ∈ sizes then pure (.error (.argument .zeroPointSize))
  else (rasterizeFrom engine options sizes.length report 0 sizes).run

end Raster

end BitmapFont
