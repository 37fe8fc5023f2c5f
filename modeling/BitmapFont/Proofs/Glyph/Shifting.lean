import BitmapFont.Proofs.Glyph.Carrying
import Mathlib.Data.Int.ModEq

/-!
Shifting around the edges.

A bitmap whose opposite edges meet is a torus, and shifting turns it. `Glyph.wrap` is one
of the two circles: a column or a row, however far it is moved, comes to lie on one of
the bitmap. Main facts:

* `Glyph.carried_shift`: every pixel lands where its column and its row land;
* `Glyph.shift_shift`: shifting twice is shifting by the sums;
* `Glyph.shift_congr`: whole turns do not count;
* `Glyph.shift_acts_on_torus`: all of this, and shifting back.

Distances are integers without bounds, so that neither their sums nor their differences
with a coordinate can overflow; where arithmetic of 32 bits does the same is said at
`Glyph.shift`.
-/

namespace BitmapFont

namespace Glyph

/-! ### One circle -/

/-- The place that `a` falls on when `n` places are counted round and round. -/
def wrap (n : ℕ) (a : ℤ) : ℕ :=
  (a % n).toNat

section
variable {n : ℕ}

theorem cast_wrap (pos : 0 < n) (a : ℤ) : (wrap n a : ℤ) = a % n :=
  Int.toNat_of_nonneg (Int.emod_nonneg a (Int.natCast_ne_zero.mpr (Nat.ne_of_gt pos)))

theorem wrap_lt (pos : 0 < n) (a : ℤ) : wrap n a < n := by
  have lt := Int.emod_lt_of_pos a (Int.natCast_pos.mpr pos)
  rw [← cast_wrap pos] at lt
  exact Int.ofNat_lt.mp lt

theorem wrap_of_lt {x : ℕ} (lt : x < n) : wrap n x = x := by
  rw [wrap, Int.emod_eq_of_lt (Int.natCast_nonneg x) (Int.ofNat_lt.mpr lt), Int.toNat_natCast]

/-- What is counted on from a place does not depend on the turns made before. -/
theorem wrap_wrap_add (pos : 0 < n) (a b : ℤ) : wrap n (wrap n a + b) = wrap n (a + b) := by
  rw [wrap, cast_wrap pos, Int.emod_add_emod, wrap]

/-- Going some way and the same way back ends at the start. -/
theorem wrap_wrap_cancel {x : ℕ} (lt : x < n) {a b : ℤ} (back : a + b = 0) :
    wrap n (wrap n (x + a) + b) = x := by
  rw [wrap_wrap_add (Nat.zero_lt_of_lt lt), add_assoc, back, add_zero, wrap_of_lt lt]

/-- Places moved equally far stay apart. -/
theorem wrap_add_inj {x x' : ℕ} (lt : x < n) (lt' : x' < n) {a : ℤ}
    (same : wrap n (x + a) = wrap n (x' + a)) : x = x' := by
  rw [← wrap_wrap_cancel lt (add_neg_cancel a), same, wrap_wrap_cancel lt' (add_neg_cancel a)]

/-- Ways back that differ by whole turns lead to one place. -/
theorem wrap_back_congr {a b : ℤ} (same : a % n = b % n) (x : ℕ) :
    wrap n (x + -a) = wrap n (x + -b) :=
  congrArg Int.toNat (Int.ModEq.add_left (x : ℤ) (Int.ModEq.neg same))

theorem wrap_back_back (pos : 0 < n) (x : ℕ) (a b : ℤ) :
    wrap n (wrap n (x + -b) + -a) = wrap n (x + -(a + b)) := by
  rw [wrap_wrap_add pos, add_assoc, neg_add_rev]

end

/-! ### The torus -/

section
variable {g : Glyph} {x y : ℕ}

/-- The pixel that a shift brings to a position. -/
theorem pixel_shift_eq (g : Glyph) (dx dy : ℤ) (inside : g.InBounds x y) :
    (g.shift dx dy).pixel x y =
      g.pixel (wrap g.width.toNat (x + -dx)) (wrap g.height.toNat (y + -dy)) := by
  rw [pixel_shift g dx dy inside, Int.sub_eq_add_neg, Int.sub_eq_add_neg]
  rfl

theorem inBounds_wrap (g : Glyph) (a b : ℤ) :
    g.InBounds (wrap g.width.toNat a) (wrap g.height.toNat b) :=
  ⟨wrap_lt g.width_pos a, wrap_lt g.height_pos b⟩

theorem width_shift (g : Glyph) (dx dy : ℤ) : (g.shift dx dy).width = g.width :=
  g.atLeastOne_width

theorem sameRows_shift (g : Glyph) (dx dy : ℤ) : g.SameRows (g.shift dx dy) :=
  g.sameRows_fromFn g.width _

theorem height_shift (g : Glyph) (dx dy : ℤ) : (g.shift dx dy).height = g.height :=
  (g.sameRows_shift dx dy).height

theorem inBounds_shift {dx dy : ℤ} : (g.shift dx dy).InBounds x y ↔ g.InBounds x y := by
  rw [InBounds, width_shift, height_shift, InBounds]

/-- A shift carries every pixel as far as its column and its row are moved. -/
theorem carried_shift (g : Glyph) (dx dy : ℤ) :
    g.Carried (fun p => (wrap g.width.toNat (p.1 + dx), wrap g.height.toNat (p.2 + dy)))
      (g.shift dx dy) where
  apart := by
    rintro ⟨x, y⟩ ⟨column, row⟩ ⟨x', y'⟩ ⟨column', row'⟩ same
    obtain ⟨columns, rows⟩ := Prod.ext_iff.mp same
    exact Prod.ext (wrap_add_inj column column' columns) (wrap_add_inj row row' rows)
  inside := by
    intro x y _
    exact inBounds_shift.mpr (g.inBounds_wrap _ _)
  pixel := by
    rintro x y ⟨column, row⟩
    rw [pixel_shift_eq g dx dy (g.inBounds_wrap _ _),
      wrap_wrap_cancel column (add_neg_cancel dx), wrap_wrap_cancel row (add_neg_cancel dy)]
  clear := by
    intro u v nowhere
    apply Bool.eq_false_iff.mpr
    intro set
    obtain ⟨column, row⟩ := inBounds_shift.mp (inBounds_of_pixel set)
    refine nowhere _ _ (g.inBounds_wrap (u + -dx) (v + -dy)) (Prod.ext ?_ ?_)
    · exact wrap_wrap_cancel column (neg_add_cancel dx)
    · exact wrap_wrap_cancel row (neg_add_cancel dy)

/-- Whole turns do not count. -/
theorem shift_congr {dx dy dx' dy' : ℤ} (columns : dx % g.width.toNat = dx' % g.width.toNat)
    (rows : dy % g.height.toNat = dy' % g.height.toNat) : g.shift dx dy = g.shift dx' dy' := by
  apply ext_pixels
  · rfl
  · rw [width_shift, width_shift]
  · rw [height_shift, height_shift]
  · intro x y inside
    have inside := inBounds_shift.mp inside
    rw [pixel_shift_eq g dx dy inside, pixel_shift_eq g dx' dy' inside, wrap_back_congr columns,
      wrap_back_congr rows]

theorem shift_zero (g : Glyph) : g.shift 0 0 = g := by
  refine ext_pixels rfl (g.width_shift 0 0) (g.height_shift 0 0) ?_
  intro x y inside
  obtain ⟨column, row⟩ := inBounds_shift.mp inside
  rw [pixel_shift_eq g 0 0 ⟨column, row⟩, neg_zero, add_zero, add_zero, wrap_of_lt column,
    wrap_of_lt row]

/-- Shifting twice is shifting by the sums of the distances. -/
theorem shift_shift (g : Glyph) (a b c d : ℤ) :
    (g.shift a b).shift c d = g.shift (a + c) (b + d) := by
  apply ext_pixels
  · rfl
  · rw [width_shift, width_shift, width_shift]
  · rw [height_shift, height_shift, height_shift]
  · intro x y inside
    have once := inBounds_shift.mp inside
    have inside := inBounds_shift.mp once
    rw [pixel_shift_eq _ c d once, width_shift, height_shift,
      pixel_shift_eq g a b (g.inBounds_wrap _ _), pixel_shift_eq g (a + c) (b + d) inside,
      wrap_back_back g.width_pos, wrap_back_back g.height_pos]

end

/-! ### Translations of the torus -/

/-- What a shift by `(dx, dy)` keeps of a glyph, and where it brings the pixels. -/
structure Shifted (g : Glyph) (dx dy : ℤ) (g' : Glyph) : Prop extends g.SameRows g' where
  width : g'.width = g.width
  pixel : ∀ x y : ℕ, g.InBounds x y →
    g'.pixel ((x + dx) % g.width.toNat).toNat ((y + dy) % g.height.toNat).toNat = g.pixel x y
  count : g'.countPixels = g.countPixels

theorem shifted_shift (g : Glyph) (dx dy : ℤ) : g.Shifted dx dy (g.shift dx dy) where
  toSameRows := g.sameRows_shift dx dy
  width := g.width_shift dx dy
  pixel := (g.carried_shift dx dy).pixel
  count := (g.carried_shift dx dy).countPixels_eq

/-- Shifting is an action of the translations of the torus: pixels land where their
coordinates land modulo the size, distances add up, whole turns do not count, and every
shift can be taken back. -/
theorem shift_acts_on_torus (g : Glyph) :
    (∀ dx dy, g.Shifted dx dy (g.shift dx dy)) ∧
    (∀ a b c d, (g.shift a b).shift c d = g.shift (a + c) (b + d)) ∧
    (∀ dx dy dx' dy' : ℤ, dx % g.width.toNat = dx' % g.width.toNat →
      dy % g.height.toNat = dy' % g.height.toNat → g.shift dx dy = g.shift dx' dy') ∧
    ∀ dx dy, (g.shift dx dy).shift (-dx) (-dy) = g := by
  refine ⟨g.shifted_shift, g.shift_shift, ?_, ?_⟩
  · intro dx dy dx' dy' columns rows
    exact shift_congr columns rows
  · intro dx dy
    rw [shift_shift, add_neg_cancel, add_neg_cancel, shift_zero]

/-- A glyph of three rows and three columns whose ink is its upper left corner. -/
def corner : Glyph :=
  fromFn 120 3 3 fun x y => x == 0 && y == 0

theorem shift_acts_on_torus_corner :
    (corner.shift 1 2).pixel 1 2 = true ∧ corner.shift 4 (-1) = corner.shift 1 2 ∧
      (corner.shift 5 (-7)).shift (-5) 7 = corner := by
  obtain ⟨shifted, -, turns, back⟩ := shift_acts_on_torus corner
  refine ⟨?_, turns 4 (-1) 1 2 (by decide) (by decide), back 5 (-7)⟩
  exact ((shifted 1 2).pixel 0 0 (by decide)).trans (by decide)

end Glyph

end BitmapFont
