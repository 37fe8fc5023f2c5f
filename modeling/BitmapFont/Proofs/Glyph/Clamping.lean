import BitmapFont.Proofs.Glyph.Rows
import Mathlib.Data.UInt

/-!
Clamping widths.

Padding and cutting both go through one change of the width, `Glyph.resized`, and a glyph
that needs neither is resized to the width it has. So the laws about widths become laws
about maxima and minima of numbers. Main facts:

* `Glyph.resized_resized`: a width in between does not matter unless it cuts columns that
  are wanted later;
* `Glyph.padToMin_eq`, `Glyph.truncateToMax_eq`: which width padding and cutting ask for;
* `Glyph.clamped_resized`: what a glyph clamped between two widths looks like.
-/

namespace BitmapFont

namespace Glyph

/-! ### Resized glyphs -/

/-- The glyph in another width. Columns are cut off at the right, or clear ones added. -/
def resized (g : Glyph) (width : UInt8) : Glyph :=
  fromFn g.codepoint width g.height g.pixel

section
variable {g : Glyph} {width a b : UInt8}

theorem setWidth_of_pos (pos : 0 < width.toNat) : g.setWidth width = .ok (g.resized width) :=
  setWidth_eq_ok pos

theorem sameRows_resized (g : Glyph) (width : UInt8) : g.SameRows (g.resized width) :=
  g.sameRows_fromFn width _

theorem width_resized (g : Glyph) (pos : 0 < width.toNat) : (g.resized width).width = width :=
  atLeastOne_of_pos pos

theorem pixel_resized (g : Glyph) (pos : 0 < width.toNat) (x y : ℕ) :
    (g.resized width).pixel x y = (decide (x < width.toNat) && g.pixel x y) := by
  rw [resized, pixel_fromFn, atLeastOne_of_pos pos, atLeastOne_height, Bool.and_assoc]
  cases set : g.pixel x y with
  | false => rw [Bool.and_false]
  | true => rw [decide_eq_true (inBounds_of_pixel set).2, Bool.true_and]

theorem resized_self (g : Glyph) : g.resized g.width = g := by
  apply ext_pixels
  · rfl
  · exact g.width_resized g.width_pos
  · exact (g.sameRows_resized g.width).height
  · rintro x y ⟨column, -⟩
    rw [g.width_resized g.width_pos] at column
    rw [g.pixel_resized g.width_pos, decide_eq_true column, Bool.true_and]

/-- A width in between does not matter unless it cuts columns that are wanted later. -/
theorem resized_resized (posA : 0 < a.toNat) (posB : 0 < b.toNat)
    (wide : min b.toNat g.width.toNat ≤ a.toNat) : (g.resized a).resized b = g.resized b := by
  apply ext_pixels
  · rfl
  · rw [width_resized _ posB, width_resized _ posB]
  · rw [(sameRows_resized _ b).height, (sameRows_resized _ a).height, (sameRows_resized _ b).height]
  · intro x y _
    rw [pixel_resized _ posB, pixel_resized _ posA, pixel_resized _ posB]
    by_cases kept : x < b.toNat ∧ x < g.width.toNat
    · have between : x < a.toNat := by omega
      rw [decide_eq_true between, Bool.true_and]
    · rcases not_and_or.mp kept with cut | added
      · rw [decide_eq_false cut, Bool.false_and, Bool.false_and]
      · rw [pixel_of_le_x (Nat.not_lt.mp added), Bool.and_false]

end

/-! ### Padding and cutting -/

section
variable {g : Glyph} {lo hi : UInt8}

/-- Padding asks for the greater of two widths. -/
theorem padToMin_eq (g : Glyph) (lo : UInt8) :
    g.padToMin lo = .ok (g.resized (max lo g.width)) := by
  have pos := g.width_pos
  unfold padToMin
  by_cases narrow : g.width < lo
  · have less := UInt8.lt_iff_toNat_lt.mp narrow
    have asked : max lo g.width = lo := by
      rw [← UInt8.toNat_inj, UInt8.toNat_max]
      omega
    rw [if_pos narrow, asked]
    exact setWidth_of_pos (by omega)
  · have most := UInt8.le_iff_toNat_le.mp (UInt8.not_lt.mp narrow)
    have asked : max lo g.width = g.width := by
      rw [← UInt8.toNat_inj, UInt8.toNat_max]
      omega
    rw [if_neg narrow, asked, resized_self]

/-- Cutting asks for the smaller of two widths. -/
theorem truncateToMax_eq (g : Glyph) (pos : 0 < hi.toNat) :
    g.truncateToMax hi = .ok (g.resized (min hi g.width)) := by
  unfold truncateToMax
  by_cases wide : hi < g.width
  · have less := UInt8.lt_iff_toNat_lt.mp wide
    have asked : min hi g.width = hi := by
      rw [← UInt8.toNat_inj, UInt8.toNat_min]
      omega
    rw [if_pos wide, asked]
    exact setWidth_of_pos pos
  · have most := UInt8.le_iff_toNat_le.mp (UInt8.not_lt.mp wide)
    have asked : min hi g.width = g.width := by
      rw [← UInt8.toNat_inj, UInt8.toNat_min]
      omega
    rw [if_neg wide, asked, resized_self]

/-! ### Clamping -/

/-- The width of `g` if it lies between `lo` and `hi`, and else the nearer of the two. -/
def clampedWidth (g : Glyph) (lo hi : UInt8) : UInt8 :=
  max lo (min hi g.width)

theorem toNat_clampedWidth (g : Glyph) (lo hi : UInt8) :
    (g.clampedWidth lo hi).toNat = max lo.toNat (min hi.toNat g.width.toNat) := by
  rw [clampedWidth, UInt8.toNat_max, UInt8.toNat_min]

theorem clampedWidth_self (g : Glyph) (a : UInt8) : g.clampedWidth a a = a := by
  rw [← UInt8.toNat_inj, toNat_clampedWidth]
  omega

theorem pad_truncate (pos : 0 < lo.toNat) (le : lo ≤ hi) :
    (g.padToMin lo >>= (·.truncateToMax hi)) = .ok (g.resized (g.clampedWidth lo hi)) := by
  have ordered := UInt8.le_iff_toNat_le.mp le
  have padded : 0 < (max lo g.width).toNat := by
    rw [UInt8.toNat_max]
    omega
  have asked : min hi (max lo g.width) = g.clampedWidth lo hi := by
    rw [← UInt8.toNat_inj, toNat_clampedWidth, UInt8.toNat_min, UInt8.toNat_max]
    omega
  rw [padToMin_eq]
  change (g.resized (max lo g.width)).truncateToMax hi = _
  rw [truncateToMax_eq _ (by omega), width_resized _ padded, asked, resized_resized padded]
  · rw [toNat_clampedWidth]
    omega
  · rw [toNat_clampedWidth, UInt8.toNat_max]
    omega

theorem truncate_pad (pos : 0 < lo.toNat) (le : lo ≤ hi) :
    (g.truncateToMax hi >>= (·.padToMin lo)) = .ok (g.resized (g.clampedWidth lo hi)) := by
  have ordered := UInt8.le_iff_toNat_le.mp le
  have wide := g.width_pos
  have cut : 0 < (min hi g.width).toNat := by
    rw [UInt8.toNat_min]
    omega
  rw [truncateToMax_eq _ (by omega)]
  change (g.resized (min hi g.width)).padToMin lo = _
  rw [padToMin_eq, width_resized _ cut, ← clampedWidth, resized_resized cut]
  · rw [toNat_clampedWidth]
    omega
  · rw [toNat_clampedWidth, UInt8.toNat_min]
    omega

/-- What clamping the width of `g` between `lo` and `hi` makes of it. -/
structure Clamped (g : Glyph) (lo hi : UInt8) (g' : Glyph) : Prop extends g.SameRows g' where
  width : g'.width.toNat = max lo.toNat (min hi.toNat g.width.toNat)
  common : ∀ x y, x < g'.width.toNat → x < g.width.toNat → g'.pixel x y = g.pixel x y
  added : ∀ x y, g.width.toNat ≤ x → g'.pixel x y = false

theorem clamped_resized (g : Glyph) (pos : 0 < lo.toNat) :
    g.Clamped lo hi (g.resized (g.clampedWidth lo hi)) := by
  have clamped : 0 < (g.clampedWidth lo hi).toNat := by
    rw [toNat_clampedWidth]
    omega
  refine ⟨g.sameRows_resized _, ?_, ?_, ?_⟩
  · rw [width_resized _ clamped, toNat_clampedWidth]
  · intro x y column _
    rw [width_resized _ clamped] at column
    rw [pixel_resized _ clamped, decide_eq_true column, Bool.true_and]
  · intro x y beyond
    rw [pixel_resized _ clamped, pixel_of_le_x beyond, Bool.and_false]

end

end Glyph

end BitmapFont
