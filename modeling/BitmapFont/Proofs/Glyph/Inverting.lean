import BitmapFont.Proofs.Glyph.Shifting

/-!
Inverting.

An inverted glyph has ink where the glyph had none, and its padding stays clear. Main
facts:

* `Glyph.invert_invert`: inverting twice restores a glyph, packed bytes included;
* `Glyph.countPixels_invert`: every position of the bitmap has ink in one of the two;
* `Glyph.invert_shift`: a glyph can be inverted before or after a shift.
-/

namespace BitmapFont

namespace Glyph

section
variable {g : Glyph} {x y : ℕ}

theorem width_invert (g : Glyph) : g.invert.width = g.width :=
  g.atLeastOne_width

theorem sameRows_invert (g : Glyph) : g.SameRows g.invert :=
  g.sameRows_fromFn g.width _

theorem inBounds_invert : g.invert.InBounds x y ↔ g.InBounds x y := by
  rw [InBounds, width_invert, g.sameRows_invert.height, InBounds]

theorem invert_invert (g : Glyph) : g.invert.invert = g := by
  apply ext_pixels
  · rfl
  · rw [width_invert, width_invert]
  · rw [g.invert.sameRows_invert.height, g.sameRows_invert.height]
  · intro x y inside
    have once := inBounds_invert.mp inside
    rw [pixel_invert _ once, pixel_invert g (inBounds_invert.mp once), Bool.not_not]

/-- The ink of an inverted glyph is what was clear. -/
theorem ink_invert (g : Glyph) :
    g.invert.ink = {p ∈ Finset.range g.width.toNat ×ˢ Finset.range g.height.toNat |
      ¬ g.pixel p.1 p.2 = true} := by
  rw [ink, width_invert, g.sameRows_invert.height]
  apply Finset.filter_congr
  rintro ⟨x, y⟩ mem
  rw [Finset.mem_product, Finset.mem_range, Finset.mem_range] at mem
  rw [pixel_invert g mem, Bool.not_eq_true', Bool.not_eq_true]

theorem countPixels_invert (g : Glyph) :
    g.invert.countPixels + g.countPixels = g.width.toNat * g.height.toNat := by
  rw [countPixels_eq_card, countPixels_eq_card, ink_invert, ink, add_comm,
    Finset.card_filter_add_card_filter_not, Finset.card_product, Finset.card_range,
    Finset.card_range]

theorem invert_shift (g : Glyph) (dx dy : ℤ) :
    (g.shift dx dy).invert = g.invert.shift dx dy := by
  apply ext_pixels
  · rfl
  · rw [width_invert, width_shift, width_shift, width_invert]
  · rw [(sameRows_invert _).height, height_shift, height_shift, g.sameRows_invert.height]
  · intro x y inside
    have shifted := inBounds_invert.mp inside
    have inside := inBounds_shift.mp shifted
    rw [pixel_invert _ shifted, pixel_shift_eq g dx dy inside,
      pixel_shift_eq _ dx dy (inBounds_invert.mpr inside), width_invert,
      g.sameRows_invert.height, pixel_invert g (g.inBounds_wrap _ _)]

end

end Glyph

end BitmapFont
