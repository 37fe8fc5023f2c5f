import BitmapFont.Proofs.Glyph.Extent
import BitmapFont.Proofs.Glyph.Shifting

/-!
Centering.

Centering trims a glyph to the rows of its ink and pads it to its height again, the odd
row at the bottom. The glyph in between fits no sequence, but the result has the size of
the glyph it came from, and its ink is only moved up or down. `Glyph.Lowered` says by how
much. Main facts:

* `Glyph.InkRowsBetween.lowered_centered`: centering moves the ink to the middle rows;
* `Glyph.Lowered.centered_eq`: where the ink was before does not matter, so centering a
  second time changes nothing;
* `Glyph.exists_centered_eq_shift`: centering is a shift, and how far it goes depends on
  the height and the rows with ink only;
* `Glyph.centered_to_middle`: what is left where after centering.
-/

namespace BitmapFont

namespace Glyph

/-- The glyph with its ink moved to the middle rows. -/
def centered (g : Glyph) : Glyph :=
  g.trimVertical.centerVertical g.height

/-! ### Ink moved down -/

/-- The ink of `g'` is that of `g`, but `dy` rows further down. -/
structure Lowered (g : Glyph) (dy : ℤ) (g' : Glyph) : Prop extends g.SameRows g' where
  width : g'.width = g.width
  moved : ∀ x (y : ℕ), g.pixel x y = true → ∃ v : ℕ, (v : ℤ) = y + dy ∧ g'.pixel x v = true
  source : ∀ x (v : ℕ), g'.pixel x v = true → ∃ y : ℕ, (v : ℤ) = y + dy ∧ g.pixel x y = true

section
variable {g m m' : Glyph} {dy dy' : ℤ} {first last first' last' : ℕ}

theorem Lowered.pixel_of_pixel (one : g.Lowered dy m) (other : g.Lowered dy m') {x v : ℕ}
    (set : m.pixel x v = true) : m'.pixel x v = true := by
  obtain ⟨y, down, set⟩ := one.source x v set
  obtain ⟨v', down', set⟩ := other.moved x y set
  have same : v' = v := by omega
  rwa [same] at set

theorem Lowered.unique (one : g.Lowered dy m) (other : g.Lowered dy m') : m = m' := by
  apply ext_pixels
  · rw [one.codepoint, other.codepoint]
  · rw [one.width, other.width]
  · rw [one.height, other.height]
  · intro x y _
    exact Bool.eq_iff_iff.mpr ⟨one.pixel_of_pixel other, other.pixel_of_pixel one⟩

/-- Distances add up. -/
theorem Lowered.trans (once : g.Lowered dy m) (again : m.Lowered dy' m') :
    g.Lowered (dy + dy') m' where
  toSameRows := once.toSameRows.trans again.toSameRows
  width := again.width.trans once.width
  moved := by
    intro x y set
    obtain ⟨u, down, set⟩ := once.moved x y set
    obtain ⟨v, down', set⟩ := again.moved x u set
    exact ⟨v, by omega, set⟩
  source := by
    intro x v set
    obtain ⟨u, down', set⟩ := again.source x v set
    obtain ⟨y, down, set⟩ := once.source x u set
    exact ⟨y, by omega, set⟩

/-- The ends of the ink move with it. -/
theorem Lowered.inkRowsBetween (lowered : g.Lowered dy m) (between : g.InkRowsBetween first last)
    (top : (first' : ℤ) = first + dy) (bottom : (last' : ℤ) = last + dy) :
    m.InkRowsBetween first' last' := by
  have ends : ∀ {y y' : ℕ}, y ∈ g.inkRows → (y' : ℤ) = y + dy → y' ∈ m.inkRows := by
    rintro y y' ⟨x, set⟩ down
    obtain ⟨v, down', set⟩ := lowered.moved x y set
    have same : v = y' := by omega
    exact ⟨x, same ▸ set⟩
  have within : ∀ v ∈ m.inkRows, first' ≤ v ∧ v ≤ last' := by
    rintro v ⟨x, set⟩
    obtain ⟨y, down, set⟩ := lowered.source x v set
    have inside := between.inside set
    omega
  exact ⟨⟨ends between.least.1 top, fun v mem => (within v mem).1⟩,
    ⟨ends between.greatest.1 bottom, fun v mem => (within v mem).2⟩⟩

/-- A vertical shift lowers the ink if none of it is pushed over an edge. -/
theorem InkRowsBetween.lowered_shift (between : g.InkRowsBetween first last)
    (above : 0 ≤ first + dy) (below : last + dy < g.height.toNat) :
    g.Lowered dy (g.shift 0 dy) where
  toSameRows := g.sameRows_shift 0 dy
  width := g.width_shift 0 dy
  moved := by
    intro x y set
    have within := between.inside set
    have inside := inBounds_of_pixel set
    obtain ⟨v, down⟩ := Int.eq_ofNat_of_zero_le (a := y + dy) (by omega)
    have landed := (g.carried_shift 0 dy).pixel x y inside
    have row : v < g.height.toNat := by omega
    rw [down, add_zero, wrap_of_lt inside.1, wrap_of_lt row, set] at landed
    exact ⟨v, down.symm, landed⟩
  source := by
    intro x v set
    obtain ⟨column, row⟩ := inBounds_shift.mp (inBounds_of_pixel set)
    rw [pixel_shift_eq g 0 dy ⟨column, row⟩, neg_zero, add_zero, wrap_of_lt column] at set
    have within := between.inside set
    have back := wrap_wrap_cancel row (neg_add_cancel dy)
    obtain ⟨u, down⟩ := Int.eq_ofNat_of_zero_le (a := wrap g.height.toNat (v + -dy) + dy) (by omega)
    have same : u = v := by
      rwa [down, wrap_of_lt (by omega)] at back
    exact ⟨_, same ▸ down.symm, set⟩

end

/-! ### Trimming rows -/

section
variable {g : Glyph} {first last : ℕ}

/-- Of a glyph without ink one clear row is left. -/
theorem trimVertical_of_clear (clear : ∀ x y, g.pixel x y = false) :
    g.trimVertical = blank g.codepoint g.width 1 := by
  rw [trimVertical, firstInkRow?_of_clear clear]
  simp only [clear]
  rfl

theorem InkRowsBetween.trimVertical_eq (between : g.InkRowsBetween first last) :
    g.trimVertical = fromFn g.codepoint g.width (UInt8.ofNat (last - first + 1))
      fun x y => g.pixel x (first + y) := by
  rw [trimVertical, between.firstInkRow?_eq, between.lastInkRow?_eq]
  rfl

theorem InkRowsBetween.height_trimVertical (between : g.InkRowsBetween first last) :
    g.trimVertical.height.toNat = last - first + 1 := by
  have byte := g.height.toNat_lt
  have inside := between.lt_height
  have le : last - first + 1 ≤ 255 := by omega
  rw [between.trimVertical_eq, fromFn_height, atLeastOne_ofNat (Nat.le_add_left 1 _) le,
    toNat_ofNat_of_le le]

/-- A trimmed glyph begins at the first row with ink. -/
theorem InkRowsBetween.pixel_trimVertical (between : g.InkRowsBetween first last) (x y : ℕ) :
    g.trimVertical.pixel x y = g.pixel x (first + y) := by
  have height := between.height_trimVertical
  rw [between.trimVertical_eq] at height ⊢
  rw [pixel_fromFn, atLeastOne_width]
  rw [fromFn_height] at height
  cases set : g.pixel x (first + y) with
  | false => rw [Bool.and_false]
  | true =>
      have within := between.inside set
      have row : y < (atLeastOne (UInt8.ofNat (last - first + 1))).toNat := by omega
      rw [decide_eq_true (inBounds_of_pixel set).1, decide_eq_true row]
      rfl

theorem width_trimVertical (g : Glyph) : g.trimVertical.width = g.width := by
  rcases g.exists_inkRowsBetween_or_clear with ⟨first, last, between⟩ | clear
  · rw [between.trimVertical_eq, fromFn_width, atLeastOne_width]
  · rw [trimVertical_of_clear clear]
    exact g.atLeastOne_width

end

/-! ### Padding rows -/

section
variable {g : Glyph} {target : UInt8}

theorem width_centerVertical (g : Glyph) (target : UInt8) :
    (g.centerVertical target).width = g.width := by
  unfold centerVertical
  split
  · rfl
  · exact g.atLeastOne_width

/-- Padding puts half of the new rows above the glyph. -/
theorem pixel_centerVertical (le : g.height.toNat ≤ target.toNat) (x y : ℕ) :
    (g.centerVertical target).pixel x y =
      (decide ((target.toNat - g.height.toNat) / 2 ≤ y) &&
        g.pixel x (y - (target.toNat - g.height.toNat) / 2)) := by
  unfold centerVertical
  split
  · rename_i high
    have none : (target.toNat - g.height.toNat) / 2 = 0 := by
      rw [Nat.sub_eq_zero_of_le (UInt8.le_iff_toNat_le.mp high), Nat.zero_div]
    rw [none, decide_eq_true (Nat.zero_le y), Bool.true_and, Nat.sub_zero]
  · rw [pixel_fromFn, atLeastOne_width, atLeastOne_of_pos (Nat.lt_of_lt_of_le g.height_pos le)]
    cases set : decide ((target.toNat - g.height.toNat) / 2 ≤ y) &&
        g.pixel x (y - (target.toNat - g.height.toNat) / 2) with
    | false => rw [Bool.and_false]
    | true =>
        simp only [Bool.and_eq_true, decide_eq_true_eq] at set
        obtain ⟨column, row⟩ := inBounds_of_pixel set.2
        have inside : y < target.toNat := by omega
        rw [decide_eq_true column, decide_eq_true inside]
        rfl

end

/-! ### Centered glyphs -/

section
variable {g m : Glyph} {first last x y : ℕ} {dy : ℤ}

theorem width_centered (g : Glyph) : g.centered.width = g.width := by
  rw [centered, width_centerVertical, width_trimVertical]

/-- The ink begins in the row that leaves as many clear rows above it as below, or one
less. -/
theorem InkRowsBetween.pixel_centered (between : g.InkRowsBetween first last) (x y : ℕ) :
    g.centered.pixel x y =
      (decide ((g.height.toNat - (last - first + 1)) / 2 ≤ y) &&
        g.pixel x (first + (y - (g.height.toNat - (last - first + 1)) / 2))) := by
  have inside := between.lt_height
  have height := between.height_trimVertical
  have fits : g.trimVertical.height.toNat ≤ g.height.toNat := by omega
  rw [centered, pixel_centerVertical fits, height, between.pixel_trimVertical]

/-- Centering moves the ink to the middle rows. -/
theorem InkRowsBetween.lowered_centered (between : g.InkRowsBetween first last) :
    g.Lowered (((g.height.toNat - (last - first + 1)) / 2 : ℕ) - first) g.centered where
  toSameRows := g.sameRows_centered
  width := g.width_centered
  moved := by
    intro x y set
    have within := between.inside set
    refine ⟨(g.height.toNat - (last - first + 1)) / 2 + (y - first), by omega, ?_⟩
    rw [between.pixel_centered, decide_eq_true (Nat.le_add_right ..), Nat.add_sub_cancel_left,
      Nat.add_sub_cancel' within.1]
    exact set
  source := by
    intro x v set
    rw [between.pixel_centered] at set
    simp only [Bool.and_eq_true, decide_eq_true_eq] at set
    exact ⟨_, by omega, set.2⟩

/-- A glyph without ink is centered as it is. -/
theorem centered_of_clear (clear : ∀ x y, g.pixel x y = false) : g.centered = g := by
  have fits : (blank g.codepoint g.width 1).height.toNat ≤ g.height.toNat := g.height_pos
  apply ext_pixels
  · exact g.sameRows_centered.codepoint
  · exact g.width_centered
  · exact g.sameRows_centered.height
  · intro x y _
    rw [centered, trimVertical_of_clear clear, pixel_centerVertical fits, pixel_blank,
      Bool.and_false, clear]

/-- Where the ink was does not matter once it is centered. -/
theorem Lowered.centered_eq (lowered : g.Lowered dy m) (between : g.InkRowsBetween first last) :
    m.centered = g.centered := by
  obtain ⟨x, set⟩ := between.least.1
  obtain ⟨x', set'⟩ := between.greatest.1
  obtain ⟨first', top, -⟩ := lowered.moved x first set
  obtain ⟨last', bottom, -⟩ := lowered.moved x' last set'
  have moved := (lowered.inkRowsBetween between top bottom).lowered_centered
  have rows : last' - first' = last - first := by omega
  rw [lowered.height, rows] at moved
  have way : dy + (((g.height.toNat - (last - first + 1)) / 2 : ℕ) - first') =
      ((g.height.toNat - (last - first + 1)) / 2 : ℕ) - first := by omega
  have both := lowered.trans moved
  rw [way] at both
  exact both.unique between.lowered_centered

theorem centered_centered (g : Glyph) : g.centered.centered = g.centered := by
  rcases g.exists_inkRowsBetween_or_clear with ⟨first, last, between⟩ | clear
  · exact between.lowered_centered.centered_eq between
  · rw [centered_of_clear clear, centered_of_clear clear]

theorem InkRowsBetween.centered_eq_shift (between : g.InkRowsBetween first last) :
    g.centered =
      g.shift 0 (((g.height.toNat - (last - first + 1)) / 2 : ℕ) - first) := by
  have ordered := between.le
  have inside := between.lt_height
  exact between.lowered_centered.unique (between.lowered_shift (by omega) (by omega))

/-- Centering is a vertical shift, the same for all glyphs that have one height and ink in
the same rows. -/
theorem exists_centered_eq_shift (g : Glyph) :
    ∃ dy, ∀ m : Glyph, m.height = g.height → m.inkRows = g.inkRows →
      m.centered = m.shift 0 dy := by
  rcases g.exists_inkRowsBetween_or_clear with ⟨first, last, between⟩ | clear
  · refine ⟨((g.height.toNat - (last - first + 1)) / 2 : ℕ) - first, ?_⟩
    intro m height rows
    have between' : m.InkRowsBetween first last := by
      constructor
      · rw [rows]
        exact between.least
      · rw [rows]
        exact between.greatest
    rw [between'.centered_eq_shift, height]
  · refine ⟨0, ?_⟩
    intro m _ rows
    rw [← inkRows_eq_empty_iff, ← rows, inkRows_eq_empty_iff] at clear
    rw [centered_of_clear clear, shift_zero]

/-- What centering makes of a glyph whose ink fills `rows` rows from row `first` on: the
ink is found from row `top` on. -/
structure Centered (g : Glyph) (first rows top : ℕ) (g' : Glyph) : Prop where
  ink : ∀ x, ∀ k < rows, g'.pixel x (top + k) = g.pixel x (first + k)
  above : ∀ x, ∀ y < top, g'.pixel x y = false
  below : ∀ x y, top + rows ≤ y → g'.pixel x y = false
  ends : g'.InkRowsBetween top (top + rows - 1)
  balanced : g.height.toNat - (top + rows) = top ∨ g.height.toNat - (top + rows) = top + 1
  count : g'.countPixels = g.countPixels

theorem InkRowsBetween.centered (between : g.InkRowsBetween first last) :
    g.Centered first (last - first + 1) ((g.height.toNat - (last - first + 1)) / 2)
      g.centered where
  ink := by
    intro x k _
    rw [between.pixel_centered, decide_eq_true (Nat.le_add_right ..), Nat.add_sub_cancel_left,
      Bool.true_and]
  above := by
    intro x y above
    rw [between.pixel_centered, decide_eq_false (Nat.not_le.mpr above), Bool.false_and]
  below := by
    intro x y below
    apply Bool.eq_false_iff.mpr
    intro set
    rw [between.pixel_centered] at set
    have within := between.inside (Bool.and_eq_true_iff.mp set).2
    omega
  ends := by
    have ordered := between.le
    exact between.lowered_centered.inkRowsBetween between (by omega) (by omega)
  balanced := by
    have inside := between.lt_height
    omega
  count := by
    rw [between.centered_eq_shift]
    exact (g.carried_shift _ _).countPixels_eq

/-- Centering keeps the size of a glyph and moves its ink to the middle rows: as many clear
rows are left above it as below, or one less. A glyph without ink stays as it is. Where the
ink was before does not matter as long as no part of it is pushed over an edge, so
centering a second time changes nothing. -/
theorem centered_to_middle (g : Glyph) :
    g.SameRows g.centered ∧ g.centered.width = g.width ∧
    ((∃ x y, g.pixel x y = true) → ∃ first last rows top, IsLeast g.inkRows first ∧
      IsGreatest g.inkRows last ∧ rows = last - first + 1 ∧
      top = (g.height.toNat - rows) / 2 ∧ g.Centered first rows top g.centered ∧
      ∀ dy : ℤ, 0 ≤ first + dy → last + dy < g.height.toNat →
        (g.shift 0 dy).centered = g.centered) ∧
    ((∀ x y, g.pixel x y = false) → g.centered = g) ∧
    g.centered.centered = g.centered := by
  refine ⟨g.sameRows_centered, g.width_centered, ?_, centered_of_clear, g.centered_centered⟩
  rintro ⟨x, y, set⟩
  obtain ⟨first, last, between⟩ := exists_inkRowsBetween set
  refine ⟨first, last, _, _, between.least, between.greatest, rfl, rfl, between.centered, ?_⟩
  intro dy above below
  exact (between.lowered_shift above below).centered_eq between

end

/-- An underline in the last row but two. -/
def underline : Glyph :=
  fromFn 95 4 6 fun _ y => y == 3

theorem inkRows_underline : underline.inkRows = {3} := by
  ext y
  constructor
  · rintro ⟨x, set⟩
    rw [underline, pixel_fromFn] at set
    simpa using (Bool.and_eq_true_iff.mp set).2
  · rintro rfl
    exact ⟨0, by decide⟩

theorem centered_to_middle_underline :
    underline.centered.pixel 1 2 = true ∧ (∀ x, underline.centered.pixel x 3 = false) ∧
      (underline.shift 0 2).centered = underline.centered ∧
      (blank 32 8 5).centered = blank 32 8 5 := by
  obtain ⟨-, -, inked, -⟩ := centered_to_middle underline
  obtain ⟨-, -, -, clear, -⟩ := centered_to_middle (blank 32 8 5)
  obtain ⟨first, last, rows, top, least, greatest, rfl, rfl, centered, shifts⟩ :=
    inked ⟨1, 3, by decide⟩
  rw [inkRows_underline] at least greatest
  cases least.1
  cases greatest.1
  refine ⟨(centered.ink 1 0 (by decide)).trans (by decide), ?_, ?_, clear (pixel_blank 32 8 5)⟩
  · intro x
    exact centered.below x 3 (by decide)
  · exact shifts 2 (by decide) (by decide)

end Glyph

end BitmapFont
