import BitmapFont.Raster.Sequence

/-!
An engine that fills boxes with a ramp of shades.

Every character is a box, and the shade at a position is a linear function of it,
wrapped around at 256. The engine needs no font and shows how boxes, bearings and
failures arrive in a sequence.
-/

namespace BitmapFont

/-- Metrics that grow linearly with the size. -/
structure LinearMetrics where
  ascent : Int
  descent : Int
  ascentSlope : Int
  descentSlope : Int

/-- Shades that grow linearly with the position. -/
structure ShadeRamp where
  base : Int
  slopeX : Int
  slopeY : Int

structure BoxFont where
  metrics : Option LinearMetrics
  /-- The box of the reference text. -/
  reference : TextBounds
  /-- The box of a character without one of its own. -/
  fallback : TextBounds
  boxes : List (Char × TextBounds)
  failing : List Char
  ramp : ShadeRamp

namespace ShadeRamp

def shade (ramp : ShadeRamp) (x y : Int) : UInt8 :=
  UInt8.ofNat ((ramp.base + ramp.slopeX * x + ramp.slopeY * y) % 256).toNat

/-- The shade at a position as it is drawn at a depth: without shades, a position
counts as covered from 128 on. -/
def shadeAt (ramp : ShadeRamp) (depth : CoverageDepth) (x y : Int) : UInt8 :=
  match depth with
  | .gray => ramp.shade x y
  | .oneBit => if 128 ≤ ramp.shade x y then 255 else 0

end ShadeRamp

/-- Draws a shade at every position of a box, moved right by `originX`. -/
def Coverage.fillBox (canvas : Coverage) (originX : Int) (box : TextBounds)
    (shade : Int → Int → UInt8) : Coverage :=
  box.positions.foldl (fun canvas (x, y) => canvas.put (originX + x) y (shade x y)) canvas

namespace BoxFont

def boxOf (font : BoxFont) (c : Char) : TextBounds :=
  (font.boxes.lookup c).getD font.fallback

def engine (font : BoxFont) : FontEngine where
  verticalMetrics size := font.metrics.map fun m =>
    { ascent := m.ascent + m.ascentSlope * size.toNat
      descent := m.descent + m.descentSlope * size.toNat }
  textBounds text _ :=
    if text = Raster.referenceText then font.reference
    else
      match text with
      | [] => font.fallback
      | c :: _ => font.boxOf c
  renderChar c _ originX depth canvas :=
    if c ∈ font.failing then
      { canvas, failure := some (.rasterization (UInt8.ofNat c.toNat) "character not in font") }
    else
      { canvas := canvas.fillBox originX (font.boxOf c) (font.ramp.shadeAt depth)
        failure := none }

end BoxFont

end BitmapFont
