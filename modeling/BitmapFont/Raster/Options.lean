/-!
Options of a rasterization: how coverage becomes one-bit pixels and how much room
a glyph gets to its left.
-/

namespace BitmapFont

/-- How rendered coverage becomes pixels. -/
inductive RenderMode where
  /-- Glyphs are rendered without shades and every touched pixel is kept. -/
  | oneBit
  /-- Glyphs are rendered in shades and pixels from a threshold on are kept. -/
  | threshold
deriving DecidableEq, Repr

structure RasterOptions where
  mode : RenderMode
  threshold : UInt8
  /-- Whether a glyph is widened by its left bearing and one column. -/
  bearingPadding : Bool
deriving DecidableEq

namespace RenderMode

def name : RenderMode → String
  | oneBit => "one_bit"
  | threshold => "threshold"

def ofName? (name : String) : Option RenderMode :=
  if name = oneBit.name then some oneBit
  else if name = threshold.name then some threshold
  else none

end RenderMode

namespace RasterOptions

/-- The options unless others are asked for. -/
def default : RasterOptions :=
  { mode := .oneBit, threshold := 128, bearingPadding := true }

/-- The options of rendering in shades with a given threshold. -/
def shaded (threshold : UInt8) : RasterOptions :=
  { default with mode := .threshold, threshold }

/-- Whether a coverage value becomes a set pixel. -/
def isSet (options : RasterOptions) (coverage : UInt8) : Bool :=
  match options.mode with
  | .oneBit => coverage != 0
  | .threshold => options.threshold ≤ coverage

end RasterOptions

end BitmapFont
