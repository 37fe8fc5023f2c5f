import BitmapFont.Glyph.Basic

/-!
Transforms of single glyphs.

Every transform returns a new glyph under the same codepoint. Those that widen a
glyph fail if the new width does not fit a byte. `trimVertical` and
`centerVertical` change the row count, so their results only fit a sequence
again once the heights match. The lemmas say what each transform does to the
view `Glyph.pixel`.
-/

namespace BitmapFont

/-- A width as a byte, refused unless it is 1 to 255. -/
def checkWidth (width : Nat) : Except FontError UInt8 :=
  if 1 ≤ width ∧ width ≤ 255 then .ok (UInt8.ofNat width)
  else .error (.argument (.glyphWidth width))

theorem checkWidth_of_le {width : Nat} (pos : 1 ≤ width) (le : width ≤ 255) :
    checkWidth width = .ok (UInt8.ofNat width) := by
  simp [checkWidth, pos, le]

theorem checkWidth_of_gt {width : Nat} (h : 255 < width) :
    checkWidth width = .error (.argument (.glyphWidth width)) := by
  simp [checkWidth, Nat.not_le.mpr h]

namespace Glyph

/-! ### Width -/

/-- Pads or cuts trailing columns so that the glyph is exactly `width` wide. -/
def setWidth (g : Glyph) (width : UInt8) : Except FontError Glyph := do
  let width ← checkWidth width.toNat
  return fromFn g.codepoint width g.height g.pixel

def padToMin (g : Glyph) (width : UInt8) : Except FontError Glyph :=
  if g.width < width then g.setWidth width else .ok g

def truncateToMax (g : Glyph) (width : UInt8) : Except FontError Glyph :=
  if g.width > width then g.setWidth width else .ok g

/-- Adds clear columns on both sides. -/
def addMargins (g : Glyph) (left right : UInt8) : Except FontError Glyph := do
  let width ← checkWidth (g.width.toNat + left.toNat + right.toNat)
  return fromFn g.codepoint width g.height fun x y =>
    decide (left.toNat ≤ x) && g.pixel (x - left.toNat) y

/-! ### Trimming and centering -/

def firstInkColumn? (g : Glyph) : Option Nat :=
  (List.range g.width.toNat).find? fun x => !g.isColumnEmpty x

def lastInkColumn? (g : Glyph) : Option Nat :=
  (List.range g.width.toNat).reverse.find? fun x => !g.isColumnEmpty x

def firstInkRow? (g : Glyph) : Option Nat :=
  (List.range g.height.toNat).find? fun y => !g.isRowEmpty y

def lastInkRow? (g : Glyph) : Option Nat :=
  (List.range g.height.toNat).reverse.find? fun y => !g.isRowEmpty y

/-- Drops clear leading and trailing columns. A glyph without ink keeps its last
column. -/
def trimHorizontal (g : Glyph) : Glyph :=
  match g.firstInkColumn? with
  | none => fromFn g.codepoint 1 g.height fun x y => g.pixel (g.width.toNat - 1 + x) y
  | some first =>
    let last := g.lastInkColumn?.getD first
    fromFn g.codepoint (UInt8.ofNat (last - first + 1)) g.height fun x y => g.pixel (first + x) y

/-- Drops clear leading and trailing rows. A glyph without ink keeps its last
row. -/
def trimVertical (g : Glyph) : Glyph :=
  match g.firstInkRow? with
  | none => fromFn g.codepoint g.width 1 fun x y => g.pixel x (g.height.toNat - 1 + y)
  | some first =>
    let last := g.lastInkRow?.getD first
    fromFn g.codepoint g.width (UInt8.ofNat (last - first + 1)) fun x y => g.pixel x (first + y)

/-- Pads with clear rows up to `targetHeight`, the odd row at the bottom. A glyph
that is already as high stays as it is. -/
def centerVertical (g : Glyph) (targetHeight : UInt8) : Glyph :=
  if g.height ≥ targetHeight then g
  else
    let top := (targetHeight.toNat - g.height.toNat) / 2
    fromFn g.codepoint g.width targetHeight fun x y => decide (top ≤ y) && g.pixel x (y - top)

/-! ### Style -/

/-- Smears every row one pixel to the right into one more column. -/
def bold (g : Glyph) : Except FontError Glyph := do
  let width ← checkWidth (g.width.toNat + 1)
  return fromFn g.codepoint width g.height fun x y =>
    g.pixel x y ||
      (decide (1 ≤ x) && decide (x - 1 < g.width.toNat - 1) && g.pixel (x - 1) y)

/-- How far a slant moves row `y` of a glyph with `height` rows to the right. -/
def slantOffset (height slant y : Nat) : Nat :=
  (height - 1 - y) * slant / height

/-- Slants the glyph to the right into `slant` more columns. A slant of zero
leaves it as it is. -/
def italic (g : Glyph) (slant : UInt8) : Except FontError Glyph :=
  if slant = 0 then .ok g
  else do
    let width ← checkWidth (g.width.toNat + slant.toNat)
    return fromFn g.codepoint width g.height fun x y =>
      let offset := slantOffset g.height.toNat slant.toNat y
      decide (offset ≤ x) && g.pixel (x - offset) y

def invert (g : Glyph) : Glyph :=
  fromFn g.codepoint g.width g.height fun x y => !g.pixel x y

/-- Moves all pixels by `(dx, dy)`, wrapping around the edges.

Distances are integers without bounds. In arithmetic of 32 bits, the differences to a
coordinate stay in range, and the glyph is the same, for `width - 2 ^ 31 ≤ dx < 2 ^ 31`
and `height - 2 ^ 31 ≤ dy < 2 ^ 31`. -/
def shift (g : Glyph) (dx dy : Int) : Glyph :=
  fromFn g.codepoint g.width g.height fun x y =>
    g.pixel (((x : Int) - dx) % (g.width.toNat : Int)).toNat
      (((y : Int) - dy) % (g.height.toNat : Int)).toNat

/-! ### Pixels of a transformed glyph -/

/-- Setting the width keeps the common columns and clears the added ones. -/
theorem setWidth_eq_ok {g : Glyph} {width : UInt8} (pos : 0 < width.toNat) :
    g.setWidth width = .ok (fromFn g.codepoint width g.height g.pixel) := by
  have := width.toNat_lt
  unfold setWidth
  rw [checkWidth_of_le pos (by omega)]
  simp [bind, Except.bind, pure, Except.pure]

theorem pixel_invert (g : Glyph) {x y : Nat} (inside : g.InBounds x y) :
    g.invert.pixel x y = !g.pixel x y := by
  simp [invert, pixel_fromFn, inside.1, inside.2]

theorem pixel_shift (g : Glyph) (dx dy : Int) {x y : Nat} (inside : g.InBounds x y) :
    (g.shift dx dy).pixel x y =
      g.pixel (((x : Int) - dx) % (g.width.toNat : Int)).toNat
        (((y : Int) - dy) % (g.height.toNat : Int)).toNat := by
  simp [shift, pixel_fromFn, inside.1, inside.2]

end Glyph

end BitmapFont
