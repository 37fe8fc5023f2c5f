import BitmapFont.Image.Mono
import BitmapFont.Sequence

/-!
Sequences cut out of an image.

An atlas is an image of 16 rows and 16 columns of equally large cells, one for
every codepoint, row by row from the top left. What lies beyond the cells is not
looked at.
-/

namespace BitmapFont.Atlas

/-- Cells per row and column. -/
def gridSize : Nat := 16

/-- Left edge of the cell of a codepoint. -/
def cellLeft (cellWidth codepoint : UInt8) : Nat :=
  codepoint.toNat % gridSize * cellWidth.toNat

/-- Top edge of the cell of a codepoint. -/
def cellTop (cellHeight codepoint : UInt8) : Nat :=
  codepoint.toNat / gridSize * cellHeight.toNat

/-- The glyph in the cell of a codepoint. -/
def cell (image : MonoImage) (cellWidth cellHeight codepoint : UInt8) : Glyph :=
  .fromFn codepoint cellWidth cellHeight fun x y =>
    image.pixel (cellLeft cellWidth codepoint + x) (cellTop cellHeight codepoint + y)

/-- The glyphs of all cells. -/
def glyphs (image : MonoImage) (cellWidth cellHeight : UInt8) : Vector Glyph glyphCount :=
  Vector.ofFn fun i => cell image cellWidth cellHeight (UInt8.ofNat i)

/-- The baseline of a sequence cut out of an atlas: two rows above the bottom if
there are that many. -/
def baselineOf (cellHeight : UInt8) : UInt8 :=
  UInt8.ofNat (cellHeight.toNat - 2)

theorem toNat_baselineOf (cellHeight : UInt8) :
    (baselineOf cellHeight).toNat = cellHeight.toNat - 2 := by
  have := cellHeight.toNat_lt
  rw [baselineOf, UInt8.toNat_ofNat']
  omega

theorem baselineOf_lt {cellHeight : UInt8} (pos : 0 < cellHeight.toNat) :
    (baselineOf cellHeight).toNat < cellHeight.toNat := by
  rw [toNat_baselineOf]
  omega

/-- The sequence of an atlas with cells of the given size. Its point size is the
height of a cell. -/
def importSequence (image : MonoImage) (cellWidth cellHeight : UInt8) :
    Except FontError Sequence :=
  let neededWidth := gridSize * cellWidth.toNat
  let neededHeight := gridSize * cellHeight.toNat
  if cellWidth = 0 ∨ cellHeight = 0 then
    .error (.argument (.emptyCell cellWidth.toNat cellHeight.toNat))
  else if image.width < neededWidth ∨ image.height < neededHeight then
    .error (.argument (.imageTooSmall image.width image.height cellWidth.toNat cellHeight.toNat
      neededWidth neededHeight))
  else
    Sequence.ofGlyphs cellHeight (baselineOf cellHeight) cellHeight
      (glyphs image cellWidth cellHeight)

end BitmapFont.Atlas
