import BitmapFont.Proofs.Glyph.Carrying
import Mathlib.Order.Monotone.Defs

/-!
Slanting.

A slant moves every row to the right, the upper ones further, into columns that are added
for it. How far is rounded down row by row, and pixels that left the bitmap would be lost
without notice. Main facts:

* `Glyph.slope_slantOffset`: the rows move by less than the number of added columns;
* `Glyph.italic_of_le`, `Glyph.italic_of_gt`: a slant fails only if the glyph gets too
  wide;
* `Glyph.italic_keeps_ink`: no pixel is lost, so the glyph can be told from its slanted
  form.
-/

namespace BitmapFont

namespace Glyph

/-! ### Offsets of the rows -/

/-- Offsets that rise from the bottom row by `slant` columns in `height` rows, rounded
down. -/
structure Slope (height slant : ℕ) (offset : ℕ → ℕ) : Prop where
  floor : ∀ y < height, offset y * height ≤ (height - 1 - y) * slant ∧
    (height - 1 - y) * slant < (offset y + 1) * height
  antitone : Antitone offset
  bottom : offset (height - 1) = 0
  room : ∀ y, offset y + 1 ≤ slant

theorem slope_slantOffset {height slant : ℕ} (rows : 0 < height) (slanted : 1 ≤ slant) :
    Slope height slant (slantOffset height slant) where
  floor := by
    intro y _
    refine ⟨Nat.div_mul_le_self _ _, ?_⟩
    rw [Nat.mul_comm (_ + 1)]
    exact Nat.lt_mul_div_succ _ rows
  antitone := by
    intro y y' lower
    exact Nat.div_le_div_right (Nat.mul_le_mul_right slant (Nat.sub_le_sub_left lower _))
  bottom := by
    rw [slantOffset, Nat.sub_self, Nat.zero_mul, Nat.zero_div]
  room := by
    intro y
    -- Even the top row is less than `height` rows above the bottom.
    have above : height - 1 - y < height := by omega
    apply Nat.succ_le_of_lt
    rw [slantOffset, Nat.div_lt_iff_lt_mul rows, Nat.mul_comm slant]
    exact Nat.mul_lt_mul_of_pos_right above slanted

/-! ### Slanted glyphs -/

section
variable {g g' : Glyph} {slant : UInt8}

theorem italic_of_le (slanted : 1 ≤ slant.toNat) (le : g.width.toNat + slant.toNat ≤ 255) :
    g.italic slant = .ok (g.rowsMoved (UInt8.ofNat (g.width.toNat + slant.toNat))
      (slantOffset g.height.toNat slant.toNat)) := by
  rw [italic, if_neg (toNat_pos_iff.mp slanted)]
  exact drawn_of_le _ (Nat.le_add_right_of_le g.width_pos) le

theorem italic_of_gt (slanted : 1 ≤ slant.toNat) (gt : 255 < g.width.toNat + slant.toNat) :
    g.italic slant = .error (.argument (.glyphWidth (g.width.toNat + slant.toNat))) := by
  rw [italic, if_neg (toNat_pos_iff.mp slanted)]
  exact drawn_of_gt _ gt

/-- What a slant keeps of a glyph, and where it brings the pixels. -/
structure Slanted (g : Glyph) (slant : UInt8) (g' : Glyph) : Prop extends g.SameRows g' where
  width : g'.width.toNat = g.width.toNat + slant.toNat
  carried : g.Carried (fun p => (p.1 + slantOffset g.height.toNat slant.toNat p.2, p.2)) g'
  lastColumn : ∀ y, g'.pixel (g.width.toNat + slant.toNat - 1) y = false
  count : g'.countPixels = g.countPixels

theorem slanted_rowsMoved (slanted : 1 ≤ slant.toNat) (le : g.width.toNat + slant.toNat ≤ 255) :
    g.Slanted slant (g.rowsMoved (UInt8.ofNat (g.width.toNat + slant.toNat))
      (slantOffset g.height.toNat slant.toNat)) := by
  have slope := slope_slantOffset g.height_pos slanted
  have pos : 1 ≤ g.width.toNat + slant.toNat := Nat.le_add_right_of_le g.width_pos
  have room : ∀ y < g.height.toNat, g.width.toNat + slantOffset g.height.toNat slant.toNat y ≤
      g.width.toNat + slant.toNat := by
    intro y _
    exact Nat.add_le_add_left (Nat.le_of_succ_le (slope.room y)) _
  have carried := carried_rowsMoved pos le room
  refine ⟨g.sameRows_rowsMoved _ _, width_rowsMoved pos le, carried, ?_, carried.countPixels_eq⟩
  intro v
  apply carried.clear
  rintro x y ⟨column, -⟩ placed
  have last : x + slantOffset g.height.toNat slant.toNat y = g.width.toNat + slant.toNat - 1 :=
    congrArg Prod.fst placed
  have before := slope.room y
  omega

theorem slanted_of_italic (slanted : 1 ≤ slant.toNat) (done : g.italic slant = .ok g') :
    g.width.toNat + slant.toNat ≤ 255 ∧ g.Slanted slant g' := by
  by_cases le : g.width.toNat + slant.toNat ≤ 255
  · rw [italic_of_le slanted le] at done
    cases done
    exact ⟨le, slanted_rowsMoved slanted le⟩
  · rw [italic_of_gt slanted (Nat.not_le.mp le)] at done
    cases done

/-- A slant moves every row by an offset smaller than the width it adds. It succeeds
exactly if the new width fits a byte, and then it carries all pixels and leaves the last
column clear. Glyphs of one codepoint and size that look alike when slanted are equal. -/
theorem italic_keeps_ink (g : Glyph) (slant : UInt8) (slanted : 1 ≤ slant.toNat) :
    Slope g.height.toNat slant.toNat (slantOffset g.height.toNat slant.toNat) ∧
    ((∃ g', g.italic slant = .ok g') ↔ g.width.toNat + slant.toNat ≤ 255) ∧
    (∀ g', g.italic slant = .ok g' → g.Slanted slant g') ∧
    ∀ k g', k.codepoint = g.codepoint → k.width = g.width → k.height = g.height →
      k.italic slant = .ok g' → g.italic slant = .ok g' → k = g := by
  refine ⟨slope_slantOffset g.height_pos slanted, ?_, ?_, ?_⟩
  · constructor
    · rintro ⟨g', done⟩
      exact (slanted_of_italic slanted done).1
    · intro le
      exact ⟨_, italic_of_le slanted le⟩
  · intro g' done
    exact (slanted_of_italic slanted done).2
  · intro k g' codepoint width height done done'
    have carried := (slanted_of_italic slanted done).2.carried
    rw [height] at carried
    exact carried.unique (slanted_of_italic slanted done').2.carried codepoint width height

end

/-- A bar of four rows. -/
def bar : Glyph :=
  fromFn 124 1 4 fun _ _ => true

theorem italic_keeps_ink_bar :
    (∃ g', bar.italic 2 = .ok g' ∧ bar.Slanted 2 g' ∧ g'.pixel 1 0 = true) ∧
      ¬ ∃ g', bar.italic 255 = .ok g' := by
  obtain ⟨-, accepted, slanted, -⟩ := italic_keeps_ink bar 2 (by decide)
  obtain ⟨-, refused, -⟩ := italic_keeps_ink bar 255 (by decide)
  obtain ⟨g', done⟩ := accepted.mpr (by decide)
  refine ⟨⟨g', done, slanted g' done, ?_⟩, fun done => absurd (refused.mp done) (by decide)⟩
  exact ((slanted g' done).carried.pixel 0 0 (by decide)).trans (by decide)

end Glyph

end BitmapFont
