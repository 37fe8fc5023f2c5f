import BitmapFont.Proofs.Glyph.Representation
import BitmapFont.Proofs.Glyph.Rows
import Mathlib.Data.Finset.Image

/-!
Pixels carried from one glyph to another.

Some transforms do not draw anything new, they put every pixel of a glyph somewhere else.
`Glyph.Carried` says where: every pixel has a place of its own inside the new glyph, and
where nothing is put the new glyph is clear. Main facts:

* `Glyph.Carried.countPixels_eq`: carrying pixels loses no ink;
* `Glyph.Carried.unique`: what was carried can be told from the result;
* `Glyph.carried_rowsMoved`: moving rows to the right carries all pixels if the rows have
  room.
-/

namespace BitmapFont

namespace Glyph

/-- Every pixel of `g` lies in `g'` where `place` puts it, and the rest of `g'` is
clear. -/
structure Carried (g : Glyph) (place : ℕ × ℕ → ℕ × ℕ) (g' : Glyph) : Prop where
  apart : Set.InjOn place {p | g.InBounds p.1 p.2}
  inside : ∀ x y, g.InBounds x y → g'.InBounds (place (x, y)).1 (place (x, y)).2
  pixel : ∀ x y, g.InBounds x y → g'.pixel (place (x, y)).1 (place (x, y)).2 = g.pixel x y
  clear : ∀ u v, (∀ x y, g.InBounds x y → place (x, y) ≠ (u, v)) → g'.pixel u v = false

section
variable {g g' : Glyph} {place : ℕ × ℕ → ℕ × ℕ}

theorem Carried.source (carried : g.Carried place g') {u v : ℕ} (set : g'.pixel u v = true) :
    ∃ x y, g.InBounds x y ∧ place (x, y) = (u, v) := by
  apply Classical.byContradiction
  intro nowhere
  have clear := carried.clear u v fun x y inside placed => nowhere ⟨x, y, inside, placed⟩
  rw [set] at clear
  cases clear

theorem Carried.ink_eq (carried : g.Carried place g') : g'.ink = g.ink.image place := by
  ext ⟨u, v⟩
  rw [mem_ink, Finset.mem_image]
  constructor
  · intro set
    obtain ⟨x, y, inside, placed⟩ := carried.source set
    have pixel := carried.pixel x y inside
    rw [placed, set] at pixel
    exact ⟨(x, y), mem_ink.mpr pixel.symm, placed⟩
  · rintro ⟨⟨x, y⟩, set, placed⟩
    rw [mem_ink] at set
    have pixel := carried.pixel x y (inBounds_of_pixel set)
    rw [placed, set] at pixel
    exact pixel

/-- Carrying pixels loses none of the ink and adds none. -/
theorem Carried.countPixels_eq (carried : g.Carried place g') :
    g'.countPixels = g.countPixels := by
  rw [countPixels_eq_card, countPixels_eq_card, carried.ink_eq]
  apply Finset.card_image_of_injOn
  rintro ⟨x, y⟩ set ⟨x', y'⟩ set'
  exact carried.apart (inBounds_of_pixel (mem_ink.mp set)) (inBounds_of_pixel (mem_ink.mp set'))

/-- Two glyphs of one codepoint and size that are carried to the same glyph in the same
way are equal. -/
theorem Carried.unique {a b : Glyph} (first : a.Carried place g) (second : b.Carried place g)
    (codepoint : a.codepoint = b.codepoint) (width : a.width = b.width)
    (height : a.height = b.height) : a = b := by
  apply ext_pixels codepoint width height
  intro x y inside
  have inside' : b.InBounds x y := by
    unfold InBounds
    rw [← width, ← height]
    exact inside
  exact (first.pixel x y inside).symm.trans (second.pixel x y inside')

end

/-! ### Wider glyphs -/

section
variable {n : ℕ} (draw : UInt8 → Glyph)

theorem drawn_of_le (pos : 1 ≤ n) (le : n ≤ 255) :
    (do let width ← checkWidth n; return draw width) = Except.ok (draw (UInt8.ofNat n)) := by
  rw [checkWidth_of_le pos le]
  rfl

theorem drawn_of_gt (gt : 255 < n) :
    (do let width ← checkWidth n; return draw width) =
      Except.error (.argument (.glyphWidth n)) := by
  rw [checkWidth_of_gt gt]
  rfl

end

/-! ### Rows moved to the right -/

/-- The glyph in another width with each row `y` moved to the right by `offset y`. -/
def rowsMoved (g : Glyph) (width : UInt8) (offset : ℕ → ℕ) : Glyph :=
  fromFn g.codepoint width g.height fun x y =>
    decide (offset y ≤ x) && g.pixel (x - offset y) y

section
variable {g : Glyph} {n : ℕ} {offset : ℕ → ℕ}

theorem sameRows_rowsMoved (g : Glyph) (width : UInt8) (offset : ℕ → ℕ) :
    g.SameRows (g.rowsMoved width offset) :=
  g.sameRows_fromFn width _

theorem width_rowsMoved (pos : 1 ≤ n) (le : n ≤ 255) :
    (g.rowsMoved (UInt8.ofNat n) offset).width.toNat = n := by
  rw [rowsMoved, fromFn_width, atLeastOne_ofNat pos le, toNat_ofNat_of_le le]

/-- A row is found where it was moved to if the new width has room for it. -/
theorem pixel_rowsMoved (pos : 1 ≤ n) (le : n ≤ 255)
    (room : ∀ y < g.height.toNat, g.width.toNat + offset y ≤ n) (x y : ℕ) :
    (g.rowsMoved (UInt8.ofNat n) offset).pixel x y =
      (decide (offset y ≤ x) && g.pixel (x - offset y) y) := by
  rw [rowsMoved, pixel_fromFn, atLeastOne_height, atLeastOne_ofNat pos le, toNat_ofNat_of_le le]
  cases set : decide (offset y ≤ x) && g.pixel (x - offset y) y with
  | false => rw [Bool.and_false]
  | true =>
      simp only [Bool.and_eq_true, decide_eq_true_eq] at set
      have inside := inBounds_of_pixel set.2
      have fits := room y inside.2
      have column : x < n := by
        have := inside.1
        omega
      rw [decide_eq_true column, decide_eq_true inside.2]
      rfl

theorem carried_rowsMoved (pos : 1 ≤ n) (le : n ≤ 255)
    (room : ∀ y < g.height.toNat, g.width.toNat + offset y ≤ n) :
    g.Carried (fun p => (p.1 + offset p.2, p.2)) (g.rowsMoved (UInt8.ofNat n) offset) where
  apart := by
    rintro ⟨x, y⟩ - ⟨x', y'⟩ - same
    obtain ⟨column, rfl⟩ := Prod.ext_iff.mp same
    exact Prod.ext (Nat.add_right_cancel column) rfl
  inside := by
    rintro x y ⟨column, row⟩
    have fits := room y row
    refine ⟨?_, by rwa [(g.sameRows_rowsMoved _ _).height]⟩
    rw [width_rowsMoved pos le]
    exact Nat.lt_of_lt_of_le (Nat.add_lt_add_right column _) fits
  pixel := by
    intro x y _
    rw [pixel_rowsMoved pos le room, decide_eq_true (Nat.le_add_left ..), Nat.add_sub_cancel,
      Bool.true_and]
  clear := by
    intro u v nowhere
    rw [pixel_rowsMoved pos le room]
    apply Bool.eq_false_iff.mpr
    intro set
    simp only [Bool.and_eq_true, decide_eq_true_eq] at set
    exact nowhere (u - offset v) v (inBounds_of_pixel set.2)
      (Prod.ext (Nat.sub_add_cancel set.1) rfl)

end

end Glyph

end BitmapFont
