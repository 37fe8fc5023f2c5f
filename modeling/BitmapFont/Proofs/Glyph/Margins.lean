import BitmapFont.Proofs.Glyph.Carrying
import BitmapFont.Proofs.Glyph.Extent

/-!
Margins and trimming.

Margins are clear columns on both sides of a glyph. `Glyph.Margined` says what they make
of the pixels, and since equal pixels make equal glyphs it decides the result, packed
bytes included. Main facts:

* `Glyph.addMargins_eq_ok_iff`: what is added is told by the pixels alone;
* `Glyph.Margined.trans`: margins around margins add up;
* `Glyph.InkBetween.margined_trimHorizontal`: a glyph with ink is its trimmed form with
  margins around it;
* `Glyph.Margined.trimHorizontal_eq`: margins do not matter once they are trimmed, so
  trimming a second time changes nothing;
* `Glyph.trimHorizontal_undoes_margins`: all of this for every glyph.
-/

namespace BitmapFont

namespace Glyph

/-! ### Margins -/

/-- The glyph `g` between `left` and `right` clear columns. -/
structure Margined (g : Glyph) (left right : ℕ) (g' : Glyph) : Prop extends g.SameRows g' where
  width : g'.width.toNat = g.width.toNat + left + right
  pixel : ∀ x y, g'.pixel x y = (decide (left ≤ x) && g.pixel (x - left) y)

section
variable {g m m' : Glyph} {left right : ℕ}

theorem Margined.unique (first : g.Margined left right m) (second : g.Margined left right m') :
    m = m' := by
  apply ext_pixels
  · rw [first.codepoint, second.codepoint]
  · rw [← UInt8.toNat_inj, first.width, second.width]
  · rw [first.height, second.height]
  · intro x y _
    rw [first.pixel, second.pixel]

/-- Margins around margins add up. -/
theorem Margined.trans {left' right' : ℕ} (inner : g.Margined left right m)
    (outer : m.Margined left' right' m') :
    g.Margined (left + left') (right + right') m' where
  toSameRows := inner.toSameRows.trans outer.toSameRows
  width := by
    rw [outer.width, inner.width]
    omega
  pixel := by
    intro x y
    have both : (left' ≤ x ∧ left ≤ x - left') ↔ left + left' ≤ x := by omega
    have column : x - left' - left = x - (left + left') := by omega
    rw [outer.pixel, inner.pixel, column, ← Bool.and_assoc, ← Bool.decide_and,
      decide_eq_decide.mpr both]

theorem one_le_width_add (g : Glyph) (left right : ℕ) : 1 ≤ g.width.toNat + left + right :=
  Nat.le_add_right_of_le (Nat.le_add_right_of_le g.width_pos)

theorem Margined.fits (margined : g.Margined left right m) :
    g.width.toNat + left + right ≤ 255 := by
  rw [← margined.width]
  exact Nat.le_of_lt_succ m.width.toNat_lt

theorem margined_rowsMoved (le : g.width.toNat + left + right ≤ 255) :
    g.Margined left right
      (g.rowsMoved (UInt8.ofNat (g.width.toNat + left + right)) fun _ => left) where
  toSameRows := g.sameRows_rowsMoved _ _
  width := width_rowsMoved (g.one_le_width_add left right) le
  pixel := pixel_rowsMoved (g.one_le_width_add left right) le fun _ _ => Nat.le_add_right _ _

/-- Margins carry all pixels to the right. -/
theorem Margined.countPixels_eq (margined : g.Margined left right m) :
    m.countPixels = g.countPixels := by
  have carried := carried_rowsMoved (g.one_le_width_add left right) margined.fits
    fun _ _ => Nat.le_add_right _ _
  rw [margined.unique (margined_rowsMoved margined.fits)]
  exact carried.countPixels_eq

end

section
variable {g m : Glyph} {left right : UInt8}

theorem addMargins_of_le (le : g.width.toNat + left.toNat + right.toNat ≤ 255) :
    g.addMargins left right = .ok (g.rowsMoved
      (UInt8.ofNat (g.width.toNat + left.toNat + right.toNat)) fun _ => left.toNat) :=
  drawn_of_le _ (g.one_le_width_add _ _) le

theorem addMargins_of_gt (gt : 255 < g.width.toNat + left.toNat + right.toNat) :
    g.addMargins left right =
      .error (.argument (.glyphWidth (g.width.toNat + left.toNat + right.toNat))) :=
  drawn_of_gt _ gt

/-- Adding margins gives the glyph that has them, if there is one. -/
theorem addMargins_eq_ok_iff :
    g.addMargins left right = .ok m ↔ g.Margined left.toNat right.toNat m := by
  constructor
  · intro done
    by_cases le : g.width.toNat + left.toNat + right.toNat ≤ 255
    · rw [addMargins_of_le le] at done
      cases done
      exact margined_rowsMoved le
    · rw [addMargins_of_gt (Nat.not_le.mp le)] at done
      cases done
  · intro margined
    rw [addMargins_of_le margined.fits, margined.unique (margined_rowsMoved margined.fits)]

end

/-! ### Trimming -/

section
variable {g : Glyph} {first last : ℕ}

/-- Of a glyph without ink one clear column is left. -/
theorem trimHorizontal_of_clear (clear : ∀ x y, g.pixel x y = false) :
    g.trimHorizontal = blank g.codepoint 1 g.height := by
  rw [trimHorizontal, firstInkColumn?_of_clear clear]
  simp only [clear]
  rfl

theorem InkBetween.trimHorizontal_eq (between : g.InkBetween first last) :
    g.trimHorizontal = fromFn g.codepoint (UInt8.ofNat (last - first + 1)) g.height
      fun x y => g.pixel (first + x) y := by
  rw [trimHorizontal, between.firstInkColumn?_eq, between.lastInkColumn?_eq]
  rfl

theorem InkBetween.width_trimHorizontal (between : g.InkBetween first last) :
    g.trimHorizontal.width.toNat = last - first + 1 := by
  have byte := g.width.toNat_lt
  have inside := between.lt_width
  have le : last - first + 1 ≤ 255 := by omega
  rw [between.trimHorizontal_eq, fromFn_width, atLeastOne_ofNat (Nat.le_add_left 1 _) le,
    toNat_ofNat_of_le le]

/-- A trimmed glyph begins at the first column with ink. -/
theorem InkBetween.pixel_trimHorizontal (between : g.InkBetween first last) (x y : ℕ) :
    g.trimHorizontal.pixel x y = g.pixel (first + x) y := by
  have width := between.width_trimHorizontal
  rw [between.trimHorizontal_eq] at width ⊢
  rw [pixel_fromFn, atLeastOne_height]
  rw [fromFn_width] at width
  cases set : g.pixel (first + x) y with
  | false => rw [Bool.and_false]
  | true =>
      have inside := between.inside set
      have column : x < (atLeastOne (UInt8.ofNat (last - first + 1))).toNat := by omega
      rw [decide_eq_true column, decide_eq_true (inBounds_of_pixel set).2]
      rfl

/-- A glyph with ink is its trimmed form between clear columns. -/
theorem InkBetween.margined_trimHorizontal (between : g.InkBetween first last) :
    g.trimHorizontal.Margined first (g.width.toNat - 1 - last) g where
  codepoint := g.sameRows_trimHorizontal.codepoint.symm
  height := g.sameRows_trimHorizontal.height.symm
  width := by
    have ordered := between.le
    have inside := between.lt_width
    rw [between.width_trimHorizontal]
    omega
  pixel := by
    intro x y
    rw [between.pixel_trimHorizontal]
    by_cases after : first ≤ x
    · rw [decide_eq_true after, Bool.true_and, Nat.add_sub_cancel' after]
    · rw [decide_eq_false after, Bool.false_and]
      apply Bool.eq_false_iff.mpr
      intro set
      exact after (between.inside set).1

end

/-! ### Trimming margins away -/

section
variable {g m : Glyph} {left right first last : ℕ}

theorem Margined.inkBetween (margined : g.Margined left right m)
    (between : g.InkBetween first last) : m.InkBetween (first + left) (last + left) := by
  have moved : ∀ {x y}, g.pixel x y = true → m.pixel (x + left) y = true := by
    intro x y set
    rw [margined.pixel, decide_eq_true (Nat.le_add_left ..), Nat.add_sub_cancel, set]
    rfl
  have source : ∀ {x y}, m.pixel x y = true → left ≤ x ∧ g.pixel (x - left) y = true := by
    intro x y set
    rw [margined.pixel] at set
    simpa only [Bool.and_eq_true, decide_eq_true_eq] using set
  refine ⟨⟨between.least.1.imp fun _ => moved, ?_⟩, ⟨between.greatest.1.imp fun _ => moved, ?_⟩⟩
  · rintro x ⟨y, set⟩
    have inside := between.inside (source set).2
    have after := (source set).1
    omega
  · rintro x ⟨y, set⟩
    have inside := between.inside (source set).2
    omega

/-- Margins do not matter once they are trimmed. -/
theorem Margined.trimHorizontal_eq (margined : g.Margined left right m) :
    m.trimHorizontal = g.trimHorizontal := by
  obtain ⟨first, last, between⟩ | clear := g.exists_inkBetween_or_clear
  · have between' := margined.inkBetween between
    apply ext_pixels
    · rw [m.sameRows_trimHorizontal.codepoint, g.sameRows_trimHorizontal.codepoint,
        margined.codepoint]
    · rw [← UInt8.toNat_inj, between'.width_trimHorizontal, between.width_trimHorizontal,
        Nat.add_sub_add_right]
    · rw [m.sameRows_trimHorizontal.height, g.sameRows_trimHorizontal.height, margined.height]
    · intro x y _
      have after : left ≤ first + left + x := by omega
      have column : first + left + x - left = first + x := by omega
      rw [between'.pixel_trimHorizontal, between.pixel_trimHorizontal, margined.pixel,
        decide_eq_true after, column, Bool.true_and]
  · have clear' : ∀ x y, m.pixel x y = false := by
      intro x y
      rw [margined.pixel, clear, Bool.and_false]
    rw [trimHorizontal_of_clear clear, trimHorizontal_of_clear clear', margined.codepoint,
      margined.height]

theorem trimHorizontal_trimHorizontal (g : Glyph) :
    g.trimHorizontal.trimHorizontal = g.trimHorizontal := by
  obtain ⟨first, last, between⟩ | clear := g.exists_inkBetween_or_clear
  · -- The glyph itself is its trimmed form with margins.
    exact between.margined_trimHorizontal.trimHorizontal_eq.symm
  · rw [trimHorizontal_of_clear clear, trimHorizontal_of_clear (pixel_blank _ _ _),
      blank_height _ _ g.height_pos]
    rfl

/-- What trimming leaves of a glyph whose ink reaches from column `first` to column
`last`. -/
structure Trimmed (g : Glyph) (first last : ℕ) (g' : Glyph) : Prop where
  width : g'.width.toNat = last - first + 1
  firstInk : ∃ y, g'.pixel 0 y = true
  lastInk : ∃ y, g'.pixel (g'.width.toNat - 1) y = true
  count : g'.countPixels = g.countPixels
  restored : g'.addMargins (UInt8.ofNat first) (UInt8.ofNat (g.width.toNat - 1 - last)) = .ok g

theorem InkBetween.trimmed (between : g.InkBetween first last) :
    g.Trimmed first last g.trimHorizontal where
  width := between.width_trimHorizontal
  firstInk := by
    obtain ⟨y, set⟩ := between.least.1
    exact ⟨y, (between.pixel_trimHorizontal 0 y).trans set⟩
  lastInk := by
    obtain ⟨y, set⟩ := between.greatest.1
    have column : first + (last - first + 1 - 1) = last := by
      rw [Nat.add_sub_cancel, Nat.add_sub_cancel' between.le]
    refine ⟨y, ?_⟩
    rw [between.width_trimHorizontal, between.pixel_trimHorizontal, column]
    exact set
  count := between.margined_trimHorizontal.countPixels_eq.symm
  restored := by
    have byte := g.width.toNat_lt
    have ordered := between.le
    have inside := between.lt_width
    rw [addMargins_eq_ok_iff, toNat_ofNat_of_le (by omega), toNat_ofNat_of_le (by omega)]
    exact between.margined_trimHorizontal

end

/-! ### Margins around margins -/

section
variable {g : Glyph} {a b c d : UInt8}

theorem toNat_add_of_le (le : a.toNat + b.toNat ≤ 255) : (a + b).toNat = a.toNat + b.toNat := by
  rw [UInt8.toNat_add, Nat.mod_eq_of_lt (by omega)]

theorem exists_margined (le : g.width.toNat + a.toNat + b.toNat ≤ 255) :
    ∃ m, g.addMargins a b = .ok m ∧ g.Margined a.toNat b.toNat m :=
  ⟨_, addMargins_of_le le, margined_rowsMoved le⟩

theorem addMargins_twice_of_le
    (le : g.width.toNat + a.toNat + b.toNat + c.toNat + d.toNat ≤ 255) :
    ∃ m, (g.addMargins a b >>= fun inner => inner.addMargins c d) = .ok m ∧
      g.addMargins (a + c) (b + d) = .ok m := by
  have fits : g.width.toNat + a.toNat + b.toNat ≤ 255 := by omega
  obtain ⟨inner, done, margined⟩ := exists_margined fits
  have room : inner.width.toNat + c.toNat + d.toNat ≤ 255 := by rwa [margined.width]
  obtain ⟨outer, done', margined'⟩ := exists_margined room
  refine ⟨outer, ?_, ?_⟩
  · rw [done]
    exact done'
  · rw [addMargins_eq_ok_iff, toNat_add_of_le (by omega), toNat_add_of_le (by omega)]
    exact margined.trans margined'

theorem addMargins_twice_of_gt
    (gt : 255 < g.width.toNat + a.toNat + b.toNat + c.toNat + d.toNat) :
    ∃ cause, (g.addMargins a b >>= fun inner => inner.addMargins c d) = .error cause := by
  by_cases fits : g.width.toNat + a.toNat + b.toNat ≤ 255
  · obtain ⟨inner, done, margined⟩ := exists_margined fits
    have wide : 255 < inner.width.toNat + c.toNat + d.toNat := by rwa [margined.width]
    rw [done]
    exact ⟨_, addMargins_of_gt wide⟩
  · rw [addMargins_of_gt (Nat.not_le.mp fits)]
    exact ⟨_, rfl⟩

theorem addMargins_add_of_gt
    (gt : 255 < g.width.toNat + a.toNat + b.toNat + c.toNat + d.toNat)
    (left : a.toNat + c.toNat ≤ 255) (right : b.toNat + d.toNat ≤ 255) :
    ∃ cause, g.addMargins (a + c) (b + d) = .error cause := by
  refine ⟨_, addMargins_of_gt ?_⟩
  rw [toNat_add_of_le left, toNat_add_of_le right]
  omega

end

/-- Trimming undoes margins, and margins undo trimming. A second trimming changes nothing,
and margins that are added first do not change its result; margins as wide as the clear
columns that were trimmed restore the glyph, and of a glyph without ink one clear column is
left. Margins around margins are margins of the sums, refused in one step if they are in
two. -/
theorem trimHorizontal_undoes_margins (g : Glyph) :
    g.trimHorizontal.trimHorizontal = g.trimHorizontal ∧
    (∀ left right : UInt8, g.width.toNat + left.toNat + right.toNat ≤ 255 →
      ∃ m, g.addMargins left right = .ok m ∧ m.trimHorizontal = g.trimHorizontal) ∧
    ((∃ x y, g.pixel x y = true) → ∃ first last, IsLeast g.inkColumns first ∧
      IsGreatest g.inkColumns last ∧ g.Trimmed first last g.trimHorizontal) ∧
    ((∀ x y, g.pixel x y = false) → g.trimHorizontal = blank g.codepoint 1 g.height) ∧
    (∀ a b c d : UInt8, g.width.toNat + a.toNat + b.toNat + c.toNat + d.toNat ≤ 255 →
      ∃ m, (g.addMargins a b >>= fun inner => inner.addMargins c d) = .ok m ∧
        g.addMargins (a + c) (b + d) = .ok m) ∧
    ∀ a b c d : UInt8, 255 < g.width.toNat + a.toNat + b.toNat + c.toNat + d.toNat →
      a.toNat + c.toNat ≤ 255 → b.toNat + d.toNat ≤ 255 →
      (∃ cause, (g.addMargins a b >>= fun inner => inner.addMargins c d) = .error cause) ∧
        ∃ cause, g.addMargins (a + c) (b + d) = .error cause := by
  refine ⟨g.trimHorizontal_trimHorizontal, ?_, ?_, trimHorizontal_of_clear, ?_, ?_⟩
  · intro left right fits
    obtain ⟨m, done, margined⟩ := exists_margined fits
    exact ⟨m, done, margined.trimHorizontal_eq⟩
  · rintro ⟨x, y, set⟩
    obtain ⟨first, last, between⟩ := exists_inkBetween set
    exact ⟨first, last, between.least, between.greatest, between.trimmed⟩
  · intro a b c d le
    exact addMargins_twice_of_le le
  · intro a b c d gt left right
    exact ⟨addMargins_twice_of_gt gt, addMargins_add_of_gt gt left right⟩

/-- Two columns of ink between clear columns. -/
def spaced : Glyph :=
  fromFn 120 7 2 fun x _ => x == 2 || x == 4

theorem trimHorizontal_undoes_margins_spaced :
    (∃ m, spaced.addMargins 200 40 = .ok m ∧ m.trimHorizontal = spaced.trimHorizontal) ∧
      (∃ first last, IsLeast spaced.inkColumns first ∧ IsGreatest spaced.inkColumns last ∧
        spaced.Trimmed first last spaced.trimHorizontal) ∧
      (blank 120 5 3).trimHorizontal = blank 120 1 3 ∧
      (∃ m, (spaced.addMargins 3 1 >>= fun inner => inner.addMargins 4 240) = .ok m ∧
        spaced.addMargins (3 + 4) (1 + 240) = .ok m) ∧
      ∃ cause, spaced.addMargins (3 + 5) (1 + 240) = .error cause := by
  obtain ⟨-, trimmed, inked, -, sums, refused⟩ := trimHorizontal_undoes_margins spaced
  obtain ⟨-, -, -, clear, -⟩ := trimHorizontal_undoes_margins (blank 120 5 3)
  exact ⟨trimmed 200 40 (by decide), inked ⟨2, 0, by decide⟩, clear (pixel_blank 120 5 3),
    sums 3 1 4 240 (by decide), (refused 3 1 5 240 (by decide) (by decide) (by decide)).2⟩

end Glyph

end BitmapFont
