import BitmapFont.Proofs.Glyph.Carrying

/-!
Thickening again and again.

One round of `bold` smears every row one pixel to the right, but not its last column, and
adds a column. So after the first round the added column is clear, and it is the next
round that smears into it. Main facts:

* `Glyph.Thickened.round`: what one more round makes of the smeared rows;
* `Glyph.boldTimes_of_le`, `Glyph.boldTimes_of_gt`: as many rounds as there is room for
  succeed, and the next one fails;
* `Glyph.boldTimes_closed_form`: the pixels after any number of rounds.
-/

namespace BitmapFont

namespace Glyph

/-! ### One round -/

/-- Every row smeared one pixel to the right, in a glyph that is one column wider. -/
def smeared (g : Glyph) : Glyph :=
  fromFn g.codepoint (UInt8.ofNat (g.width.toNat + 1)) g.height fun x y =>
    g.pixel x y ||
      (decide (1 ≤ x) && decide (x - 1 < g.width.toNat - 1) && g.pixel (x - 1) y)

section
variable {g : Glyph}

theorem bold_of_le (le : g.width.toNat + 1 ≤ 255) : g.bold = .ok g.smeared :=
  drawn_of_le _ (Nat.le_add_left 1 _) le

theorem bold_of_gt (gt : 255 < g.width.toNat + 1) :
    g.bold = .error (.argument (.glyphWidth (g.width.toNat + 1))) :=
  drawn_of_gt _ gt

theorem width_smeared (le : g.width.toNat + 1 ≤ 255) :
    g.smeared.width.toNat = g.width.toNat + 1 := by
  rw [smeared, fromFn_width, atLeastOne_ofNat (Nat.le_add_left 1 _) le, toNat_ofNat_of_le le]

/-- A pixel is set if it was, or if its left neighbour was and is not in the last
column. -/
theorem pixel_smeared_iff (le : g.width.toNat + 1 ≤ 255) (x y : ℕ) :
    g.smeared.pixel x y = true ↔
      g.pixel x y = true ∨ (1 ≤ x ∧ x < g.width.toNat ∧ g.pixel (x - 1) y = true) := by
  rw [smeared, pixel_fromFn, atLeastOne_height, atLeastOne_ofNat (Nat.le_add_left 1 _) le,
    toNat_ofNat_of_le le]
  simp only [Bool.and_eq_true, Bool.or_eq_true, decide_eq_true_eq]
  constructor
  · rintro ⟨-, set | ⟨⟨right, inner⟩, set⟩⟩
    · exact .inl set
    · exact .inr ⟨right, by omega, set⟩
  · rintro (set | ⟨right, inner, set⟩)
    · have inside := inBounds_of_pixel set
      exact ⟨⟨Nat.lt_succ_of_lt inside.1, inside.2⟩, .inl set⟩
    · exact ⟨⟨Nat.lt_succ_of_lt inner, (inBounds_of_pixel set).2⟩, .inr ⟨⟨right, by omega⟩, set⟩⟩

end

/-! ### Many rounds -/

/-- The glyph after a number of rounds of `bold`, or the failure that came first. -/
def boldTimes (g : Glyph) : ℕ → Except FontError Glyph
  | 0 => .ok g
  | rounds + 1 => g.boldTimes rounds >>= bold

/-- What `rounds` rounds of `bold` make of a glyph: every pixel is smeared over as many
columns, up to the last column but one. -/
structure Thickened (g : Glyph) (rounds : ℕ) (g' : Glyph) : Prop extends g.SameRows g' where
  width : g'.width.toNat = g.width.toNat + rounds
  pixel : ∀ x y, g'.pixel x y = true ↔ x < g.width.toNat + (rounds - 1) ∧
    ∃ j ≤ min rounds x, x - j < g.width.toNat ∧ g.pixel (x - j) y = true

section
variable {g g' : Glyph} {rounds : ℕ}

theorem thickened_zero (g : Glyph) : g.Thickened 0 g where
  toSameRows := .refl g
  width := rfl
  pixel := by
    intro x y
    constructor
    · intro set
      have column := (inBounds_of_pixel set).1
      exact ⟨column, 0, Nat.zero_le _, column, set⟩
    · rintro ⟨-, j, moved, -, set⟩
      have unmoved : j = 0 := by omega
      rwa [unmoved] at set

theorem Thickened.round (thickened : g.Thickened rounds g')
    (le : g'.width.toNat + 1 ≤ 255) : g.Thickened (rounds + 1) g'.smeared where
  toSameRows := thickened.toSameRows.trans (g'.sameRows_fromFn _ _)
  width := by rw [width_smeared le, thickened.width, Nat.add_assoc]
  pixel := by
    intro x y
    have width := thickened.width
    have pos := g.width_pos
    rw [pixel_smeared_iff le, thickened.pixel, thickened.pixel]
    constructor
    · rintro (⟨column, j, moved, source, set⟩ | ⟨right, column, -, j, moved, source, set⟩)
      · exact ⟨by omega, j, by omega, source, set⟩
      · -- The left neighbour had come `j` columns, so this pixel has come one more.
        have next : x - 1 - j = x - (j + 1) := by omega
        rw [next] at source set
        exact ⟨by omega, j + 1, by omega, source, set⟩
    · rintro ⟨column, j, moved, source, set⟩
      cases j with
      | zero => exact .inl ⟨by omega, 0, Nat.zero_le _, source, set⟩
      | succ j =>
          have previous : x - (j + 1) = x - 1 - j := by omega
          rw [previous] at source set
          exact .inr ⟨by omega, by omega, by omega, j, by omega, source, set⟩

theorem boldTimes_of_le (le : g.width.toNat + rounds ≤ 255) :
    ∃ g', g.boldTimes rounds = .ok g' ∧ g.Thickened rounds g' := by
  induction rounds with
  | zero => exact ⟨g, rfl, g.thickened_zero⟩
  | succ rounds ih =>
      obtain ⟨g', done, thickened⟩ := ih (Nat.le_of_succ_le le)
      have room : g'.width.toNat + 1 ≤ 255 := by rwa [thickened.width]
      refine ⟨g'.smeared, ?_, thickened.round room⟩
      rw [boldTimes, done]
      exact bold_of_le room

/-- The glyph that fills the greatest width cannot be thickened any more. -/
theorem exists_widest (le : g.width.toNat ≤ 255) :
    ∃ widest, g.boldTimes (255 - g.width.toNat) = .ok widest ∧
      widest.bold = .error (.argument (.glyphWidth 256)) := by
  have full : g.width.toNat + (255 - g.width.toNat) = 255 := by omega
  obtain ⟨widest, done, thickened⟩ := boldTimes_of_le (Nat.le_of_eq full)
  have width := thickened.width.trans full
  have refused := bold_of_gt (g := widest) (by omega)
  rw [width] at refused
  exact ⟨widest, done, refused⟩

theorem boldTimes_of_gt (gt : 255 < g.width.toNat + rounds) :
    g.boldTimes rounds = .error (.argument (.glyphWidth 256)) := by
  have byte := g.width.toNat_lt
  induction rounds with
  | zero => omega
  | succ rounds ih =>
      rw [boldTimes]
      by_cases before : 255 < g.width.toNat + rounds
      · rw [ih before]
        rfl
      · obtain ⟨widest, done, refused⟩ := exists_widest (g := g) (by omega)
        have last : 255 - g.width.toNat = rounds := by omega
        rw [last] at done
        rw [done]
        exact refused

theorem thickened_of_boldTimes (done : g.boldTimes rounds = .ok g') :
    g.width.toNat + rounds ≤ 255 ∧ g.Thickened rounds g' := by
  by_cases le : g.width.toNat + rounds ≤ 255
  · obtain ⟨g'', done', thickened⟩ := boldTimes_of_le le
    rw [done] at done'
    cases done'
    exact ⟨le, thickened⟩
  · rw [boldTimes_of_gt (Nat.not_le.mp le)] at done
    cases done

/-! ### What the closed form says -/

theorem Thickened.kept (thickened : g.Thickened rounds g') {x y : ℕ}
    (set : g.pixel x y = true) : g'.pixel x y = true := by
  have column := (inBounds_of_pixel set).1
  exact (thickened.pixel x y).mpr
    ⟨Nat.lt_add_right _ column, 0, Nat.zero_le _, column, set⟩

theorem Thickened.clear_iff (thickened : g.Thickened rounds g') (y : ℕ) :
    (∀ x, g'.pixel x y = false) ↔ ∀ x, g.pixel x y = false := by
  constructor
  · intro clear x
    apply Bool.eq_false_iff.mpr
    intro set
    have kept := thickened.kept set
    rw [clear x] at kept
    cases kept
  · intro clear x
    apply Bool.eq_false_iff.mpr
    intro set
    obtain ⟨-, j, -, -, source⟩ := (thickened.pixel x y).mp set
    rw [clear (x - j)] at source
    cases source

theorem Thickened.isRowEmpty_eq (thickened : g.Thickened rounds g') (y : ℕ) :
    g'.isRowEmpty y = g.isRowEmpty y := by
  apply Bool.eq_iff_iff.mpr
  rw [isRowEmpty_iff, isRowEmpty_iff, thickened.clear_iff]

/-- Rounds of `bold` succeed as long as the width fits a byte, and the round that would
exceed it is the one that fails. Every pixel is smeared over as many columns as there were
rounds, except into the last column, so the ink of the glyph stays and no empty row gets
any. -/
theorem boldTimes_closed_form (g : Glyph) (rounds : ℕ) (pos : 1 ≤ rounds) :
    ((∃ g', g.boldTimes rounds = .ok g') ↔ g.width.toNat + rounds ≤ 255) ∧
    (255 < g.width.toNat + rounds →
      g.boldTimes rounds = .error (.argument (.glyphWidth 256)) ∧
      ∃ widest, g.boldTimes (255 - g.width.toNat) = .ok widest ∧
        widest.bold = .error (.argument (.glyphWidth 256))) ∧
    ∀ g', g.boldTimes rounds = .ok g' →
      g.Thickened rounds g' ∧ (∀ x y, g.pixel x y = true → g'.pixel x y = true) ∧
      (∀ y, g'.pixel (g.width.toNat + rounds - 1) y = false) ∧
      ∀ y, g'.isRowEmpty y = g.isRowEmpty y := by
  refine ⟨?_, ?_, ?_⟩
  · constructor
    · rintro ⟨g', done⟩
      exact (thickened_of_boldTimes done).1
    · intro le
      obtain ⟨g', done, -⟩ := boldTimes_of_le le
      exact ⟨g', done⟩
  · intro gt
    have byte := g.width.toNat_lt
    exact ⟨boldTimes_of_gt gt, exists_widest (Nat.le_of_lt_succ byte)⟩
  · intro g' done
    have thickened := (thickened_of_boldTimes done).2
    refine ⟨thickened, fun x y => thickened.kept, ?_, thickened.isRowEmpty_eq⟩
    intro y
    apply Bool.eq_false_iff.mpr
    intro set
    obtain ⟨column, -⟩ := (thickened.pixel _ y).mp set
    omega

end

/-- A single pixel. -/
def dot : Glyph :=
  fromFn 46 1 1 fun _ _ => true

theorem boldTimes_closed_form_dot :
    (∃ g', dot.boldTimes 3 = .ok g' ∧ g'.pixel 2 0 = true ∧ g'.pixel 3 0 = false) ∧
      dot.boldTimes 300 = .error (.argument (.glyphWidth 256)) := by
  obtain ⟨accepted, -, form⟩ := boldTimes_closed_form dot 3 (by decide)
  obtain ⟨-, refused, -⟩ := boldTimes_closed_form dot 300 (by decide)
  obtain ⟨g', done⟩ := accepted.mpr (by decide)
  obtain ⟨thickened, -, last, -⟩ := form g' done
  refine ⟨⟨g', done, ?_, last 0⟩, (refused (by decide)).1⟩
  exact (thickened.pixel 2 0).mpr ⟨by decide, 2, by decide, by decide, by decide⟩

end Glyph

end BitmapFont
