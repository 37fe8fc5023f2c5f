import BitmapFont.Edit.CodepointRange
import BitmapFont.Glyph.Transform
import BitmapFont.Sequence

/-!
Batch transforms: one glyph transform applied to a range of codepoints.

Every batch transform keeps the row count of a glyph, so its results fit the
sequence that the glyphs came from. If one glyph of the range cannot be
transformed, none is.
-/

namespace BitmapFont

/-- A transform that can be applied to many glyphs of a sequence at once. -/
inductive Batch where
  /-- Pads or cuts every glyph to a width. -/
  | fixWidth (width : UInt8)
  /-- Pads glyphs narrower than a width. -/
  | minWidth (width : UInt8)
  /-- Cuts glyphs wider than a width. -/
  | maxWidth (width : UInt8)
  /-- Adds clear columns on both sides. -/
  | margins (left right : UInt8)
  /-- Drops clear columns on both sides. -/
  | trim
  /-- Moves the ink to the middle rows. -/
  | center
  /-- Thickens strokes to the right. -/
  | bold
  /-- Slants to the right. -/
  | italic (slant : UInt8)
  | invert
  /-- Moves pixels around the edges. The distances are integers without bounds, as those
  of `Glyph.shift`: from `255 - 2 ^ 31` up to, but not including, `2 ^ 31` they fit
  arithmetic of 32 bits in glyphs of every size. -/
  | shift (dx dy : Int)
deriving DecidableEq

namespace Batch

def description : Batch → String
  | fixWidth _ => "Set fixed width"
  | minWidth _ => "Enforce minimum width"
  | maxWidth _ => "Enforce maximum width"
  | margins _ _ => "Add margins"
  | trim => "Trim"
  | center => "Center vertically"
  | bold => "Bold"
  | italic _ => "Italic"
  | invert => "Invert"
  | shift _ _ => "Shift"

/-- The width that a batch transform asks for, if it names one. -/
def width? : Batch → Option UInt8
  | fixWidth width => some width
  | minWidth width => some width
  | maxWidth width => some width
  | _ => none

/-- What a batch transform does to one glyph of a sequence with `height` rows. -/
def glyph (height : UInt8) : Batch → Glyph → Except FontError Glyph
  | fixWidth width, g => g.setWidth width
  | minWidth width, g => g.padToMin width
  | maxWidth width, g => g.truncateToMax width
  | margins left right, g => g.addMargins left right
  | trim, g => .ok g.trimHorizontal
  | center, g => .ok (g.trimVertical.centerVertical height)
  | bold, g => g.bold
  | italic slant, g => g.italic slant
  | invert, g => .ok g.invert
  | shift dx dy, g => .ok (g.shift dx dy)

/-- The sequence with the glyphs of a range transformed. -/
def sequence (t : Batch) (range : CodepointRange) (s : Sequence) : Except FontError Sequence := do
  if t.width? = some 0 then
    throw (.argument .zeroWidth)
  let glyphs ← range.codepoints.mapM fun codepoint => t.glyph s.height (s.glyph codepoint)
  s.replaceGlyphs glyphs

end Batch

end BitmapFont
