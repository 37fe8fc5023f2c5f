import BitmapFont.Sequence
import BitmapFont.Text.Canvas

/-!
Measuring and rendering text with one sequence.

A character up to U+00FF selects the glyph of that codepoint, and any other
character is skipped. Glyphs are placed one after the other from a pen; a line
feed moves the pen to the start of the next line and a tab to the next tab stop.
-/

namespace BitmapFont

/-- The codepoint that a character selects, if it selects one. -/
def latin1? (c : Char) : Option UInt8 :=
  if c.toNat < 256 then some (UInt8.ofNat c.toNat) else none

/-- The codepoints that a text selects. -/
def latin1 (text : List Char) : List UInt8 :=
  text.filterMap latin1?

/-- The codepoint that ends a line. -/
def lineFeed : UInt8 := 10

/-- The codepoint that moves to the next tab stop. -/
def tabulator : UInt8 := 9

/-- Clear rows between two lines. -/
def lineGap : Nat := 2

/-- Tab stops are this many spaces apart. -/
def tabSpaces : Nat := 4

/-- Where the next glyph goes, and how wide the text has become so far. -/
structure Pen where
  x : Nat
  line : Nat
  width : Nat
deriving DecidableEq

/-- A glyph of a text: its codepoint, its left edge, and its line. -/
structure Placement where
  codepoint : UInt8
  x : Nat
  line : Nat
deriving DecidableEq

namespace Pen

def start : Pen :=
  { x := 0, line := 0, width := 0 }

/-- The pen at another position of its line. -/
def moveTo (pen : Pen) (x : Nat) : Pen :=
  { pen with x, width := max pen.width x }

/-- The pen at the start of the next line. -/
def newLine (pen : Pen) : Pen :=
  { pen with x := 0, line := pen.line + 1 }

end Pen

namespace Sequence

/-- Width of a text in pixels, where every glyph counts its width plus one. -/
def measureText (s : Sequence) (text : List Char) : Nat :=
  (latin1 text).foldl (fun width codepoint => width + ((s.glyph codepoint).width.toNat + 1)) 0

/-- Distance between two tab stops. -/
def tabWidth (s : Sequence) : Nat :=
  (s.glyph spaceCodepoint).width.toNat * tabSpaces

/-- The first tab stop after `x`. -/
def nextTabStop (s : Sequence) (x : Nat) : Nat :=
  (x + s.tabWidth) / s.tabWidth * s.tabWidth

/-- The pen after a codepoint. -/
def advance (s : Sequence) (pen : Pen) (codepoint : UInt8) : Pen :=
  if codepoint = lineFeed then pen.newLine
  else if codepoint = tabulator then pen.moveTo (s.nextTabStop pen.x)
  else pen.moveTo (pen.x + (s.glyph codepoint).width.toNat)

def IsDrawn (codepoint : UInt8) : Prop :=
  codepoint ≠ lineFeed ∧ codepoint ≠ tabulator

instance (codepoint : UInt8) : Decidable (IsDrawn codepoint) :=
  inferInstanceAs (Decidable (_ ∧ _))

/-- The glyphs that codepoints place from a pen on. -/
def placements (s : Sequence) (pen : Pen) : List UInt8 → List Placement
  | [] => []
  | codepoint :: rest =>
    let later := placements s (s.advance pen codepoint) rest
    if IsDrawn codepoint then { codepoint, x := pen.x, line := pen.line } :: later else later

/-- The pen after all codepoints. -/
def finalPen (s : Sequence) (pen : Pen) (codepoints : List UInt8) : Pen :=
  codepoints.foldl s.advance pen

/-- Top row of a line. -/
def lineTop (s : Sequence) (line : Nat) : Nat :=
  line * (s.height.toNat + lineGap)

/-- Rows that a text takes whose last line is `line`. -/
def textHeight (s : Sequence) (line : Nat) : Nat :=
  (line + 1) * s.height.toNat + line * lineGap

/-- A text drawn on a canvas just large enough for it. -/
def renderText (s : Sequence) (text : List Char) : TextCanvas :=
  let codepoints := latin1 text
  let pen := s.finalPen .start codepoints
  (s.placements .start codepoints).foldl
    (fun canvas p => canvas.drawGlyph (s.glyph p.codepoint) p.x (s.lineTop p.line))
    (TextCanvas.blank pen.width (s.textHeight pen.line))

end Sequence

end BitmapFont
