import BitmapFont.Proofs.Glyph.Centering
import BitmapFont.Proofs.Glyph.Clamping
import BitmapFont.Proofs.Glyph.Margins
import BitmapFont.Proofs.Glyph.Thickening

/-!
Transforms that work row by row.

A horizontal transform draws every row from the same row of the glyph, and all rows in
the same way. So it does not matter whether the rows are turned around before it or after
it, and if no row loses or gains its last ink, centering turns the rows equally far both
times. Main facts:

* `Glyph.redrawn_shift`: redrawing the rows after a vertical shift or before it;
* `Batch.Horizontal.glyph_shift`: what that means for the horizontal transforms;
* `Batch.Horizontal.inkRows_eq`: they leave ink in the rows that had ink;
* `Batch.Horizontal.glyph_centered`: so centering commutes with them, failures included.
-/

namespace BitmapFont

namespace Glyph

/-! ### Rows redrawn -/

/-- The glyph in another width with each row redrawn in the same way. -/
def redrawn (g : Glyph) (draw : (ℕ → Bool) → ℕ → Bool) (width : UInt8) : Glyph :=
  fromFn g.codepoint width g.height fun x y => draw (fun u => g.pixel u y) x

section
variable {g m : Glyph} {x y : ℕ} {dx dy : ℤ}

/-- A vertical shift brings whole rows to other places. -/
theorem pixel_shift_of_row (g : Glyph) (dy : ℤ) (x : ℕ) (row : y < g.height.toNat) :
    (g.shift 0 dy).pixel x y = g.pixel x (wrap g.height.toNat (y + -dy)) := by
  by_cases column : x < g.width.toNat
  · rw [pixel_shift_eq g 0 dy ⟨column, row⟩, neg_zero, add_zero, wrap_of_lt column]
  · have beyond := Nat.not_lt.mp column
    rw [pixel_of_le_x beyond, pixel_of_le_x]
    rwa [width_shift]

theorem redrawn_shift (g : Glyph) (draw : (ℕ → Bool) → ℕ → Bool) (width : UInt8) (dy : ℤ) :
    (g.shift 0 dy).redrawn draw width = (g.redrawn draw width).shift 0 dy := by
  have height : (g.redrawn draw width).height = g.height := g.atLeastOne_height
  apply ext_pixels
  · rfl
  · rw [width_shift]
    rfl
  · rw [height_shift, height, redrawn, fromFn_height, height_shift, atLeastOne_height]
  · rintro x y ⟨column, row⟩
    rw [redrawn, fromFn_width] at column
    rw [redrawn, fromFn_height, height_shift, atLeastOne_height] at row
    have turned : wrap g.height.toNat (y + -dy) < g.height.toNat := wrap_lt g.height_pos _
    rw [pixel_shift_of_row _ dy x (by rwa [height]), height]
    simp only [redrawn, pixel_fromFn, height_shift, atLeastOne_height, row, turned, column,
      decide_true, Bool.true_and, pixel_shift_of_row g dy _ row]

/-- A width that is checked first does not depend on the rows. -/
theorem map_redrawn_shift (g : Glyph) (draw : (ℕ → Bool) → ℕ → Bool) (n : ℕ) (dy : ℤ) :
    (checkWidth n).map ((g.shift 0 dy).redrawn draw) =
      ((checkWidth n).map (g.redrawn draw)).map (·.shift 0 dy) := by
  cases checkWidth n with
  | error cause => rfl
  | ok width => exact congrArg Except.ok (g.redrawn_shift draw width dy)

theorem setWidth_shift (g : Glyph) (width : UInt8) (dy : ℤ) :
    (g.shift 0 dy).setWidth width = (g.setWidth width).map (·.shift 0 dy) :=
  g.map_redrawn_shift (fun row => row) width.toNat dy

theorem addMargins_shift (g : Glyph) (left right : UInt8) (dy : ℤ) :
    (g.shift 0 dy).addMargins left right = (g.addMargins left right).map (·.shift 0 dy) := by
  unfold addMargins
  rw [width_shift]
  exact g.map_redrawn_shift (fun row x => decide (left.toNat ≤ x) && row (x - left.toNat)) _ dy

theorem bold_shift (g : Glyph) (dy : ℤ) : (g.shift 0 dy).bold = g.bold.map (·.shift 0 dy) := by
  unfold bold
  rw [width_shift]
  exact g.map_redrawn_shift (fun row x => row x ||
    (decide (1 ≤ x) && decide (x - 1 < g.width.toNat - 1) && row (x - 1))) _ dy

/-! ### Columns under a vertical shift -/

theorem inkColumns_subset_shift (g : Glyph) (dy : ℤ) :
    g.inkColumns ⊆ (g.shift 0 dy).inkColumns := by
  rintro x ⟨y, set⟩
  have inside := inBounds_of_pixel set
  have landed := (g.carried_shift 0 dy).pixel x y inside
  rw [add_zero, wrap_of_lt inside.1, set] at landed
  exact ⟨_, landed⟩

theorem inkColumns_shift (g : Glyph) (dy : ℤ) : (g.shift 0 dy).inkColumns = g.inkColumns := by
  apply Set.Subset.antisymm
  · have back := (g.shift 0 dy).inkColumns_subset_shift (-dy)
    rwa [shift_shift, add_zero, add_neg_cancel, shift_zero] at back
  · exact g.inkColumns_subset_shift dy

theorem isColumnEmpty_shift (g : Glyph) (dy : ℤ) (x : ℕ) :
    (g.shift 0 dy).isColumnEmpty x = g.isColumnEmpty x := by
  rw [Bool.eq_iff_iff, isColumnEmpty_iff, isColumnEmpty_iff, inkColumns_shift]

theorem trimHorizontal_shift (g : Glyph) (dy : ℤ) :
    (g.shift 0 dy).trimHorizontal = g.trimHorizontal.shift 0 dy := by
  have first : (g.shift 0 dy).firstInkColumn? = g.firstInkColumn? := by
    simp only [firstInkColumn?, width_shift, isColumnEmpty_shift]
  have last : (g.shift 0 dy).lastInkColumn? = g.lastInkColumn? := by
    simp only [lastInkColumn?, width_shift, isColumnEmpty_shift]
  unfold trimHorizontal
  rw [first, last, width_shift]
  cases g.firstInkColumn? with
  | none => exact g.redrawn_shift (fun row x => row (g.width.toNat - 1 + x)) 1 dy
  | some first => exact g.redrawn_shift (fun row x => row (first + x)) _ dy

/-! ### Rows that keep their ink -/

theorem Margined.inkRows_eq {left right : ℕ} (margined : g.Margined left right m) :
    m.inkRows = g.inkRows := by
  ext y
  constructor
  · rintro ⟨x, set⟩
    rw [margined.pixel] at set
    exact ⟨x - left, (Bool.and_eq_true_iff.mp set).2⟩
  · rintro ⟨x, set⟩
    refine ⟨x + left, ?_⟩
    rw [margined.pixel, decide_eq_true (Nat.le_add_left ..), Nat.add_sub_cancel, set]
    rfl

theorem inkRows_trimHorizontal (g : Glyph) : g.trimHorizontal.inkRows = g.inkRows := by
  rcases g.exists_inkBetween_or_clear with ⟨first, last, between⟩ | clear
  · exact between.margined_trimHorizontal.inkRows_eq.symm
  · rw [trimHorizontal_of_clear clear, inkRows_eq_empty_iff.mpr clear,
      inkRows_eq_empty_iff.mpr (pixel_blank _ _ _)]

/-- Widening a glyph adds a right margin. -/
theorem margined_resized {width : UInt8} (le : g.width ≤ width) :
    g.Margined 0 (width.toNat - g.width.toNat) (g.resized width) := by
  have wider := UInt8.le_iff_toNat_le.mp le
  have pos : 0 < width.toNat := Nat.lt_of_lt_of_le g.width_pos wider
  refine ⟨g.sameRows_resized width, ?_, ?_⟩
  · rw [width_resized _ pos]
    omega
  · intro x y
    rw [pixel_resized _ pos, decide_eq_true (Nat.zero_le x), Bool.true_and, Nat.sub_zero]
    cases set : g.pixel x y with
    | false => rw [Bool.and_false]
    | true =>
        have column := (inBounds_of_pixel set).1
        rw [decide_eq_true (Nat.lt_of_lt_of_le column wider), Bool.true_and]

theorem inkRows_of_setWidth {width : UInt8} (le : g.width ≤ width)
    (done : g.setWidth width = .ok m) : m.inkRows = g.inkRows := by
  have wider := UInt8.le_iff_toNat_le.mp le
  rw [setWidth_of_pos (Nat.lt_of_lt_of_le g.width_pos wider)] at done
  cases done
  exact (margined_resized le).inkRows_eq

theorem inkRows_of_bold (done : g.bold = .ok m) : m.inkRows = g.inkRows := by
  have once : g.boldTimes 1 = .ok m := done
  ext y
  rw [← not_isRowEmpty_iff, (thickened_of_boldTimes once).2.isRowEmpty_eq, not_isRowEmpty_iff]

theorem inkRows_subset_shift (g : Glyph) (dx : ℤ) : g.inkRows ⊆ (g.shift dx 0).inkRows := by
  rintro y ⟨x, set⟩
  have inside := inBounds_of_pixel set
  have landed := (g.carried_shift dx 0).pixel x y inside
  rw [add_zero, wrap_of_lt inside.2, set] at landed
  exact ⟨_, landed⟩

theorem inkRows_shift (g : Glyph) (dx : ℤ) : (g.shift dx 0).inkRows = g.inkRows := by
  apply Set.Subset.antisymm
  · have back := (g.shift dx 0).inkRows_subset_shift (-dx)
    rwa [shift_shift, add_zero, add_neg_cancel, shift_zero] at back
  · exact g.inkRows_subset_shift dx

end

end Glyph

/-! ### Horizontal transforms -/

namespace Batch

/-- Whether a transform of `g` works row by row and leaves no row without its ink. A width
may be set if it cuts nothing. -/
def Horizontal (g : Glyph) : Batch → Prop
  | fixWidth width => g.width ≤ width
  | margins .. | trim | bold => True
  | shift _ dy => dy = 0
  | minWidth .. | maxWidth .. | center | italic .. | invert => False

section
variable {t : Batch} {g m : Glyph} {height : UInt8}

/-- Rows may be turned around before a horizontal transform or after it. -/
theorem Horizontal.glyph_shift (horizontal : t.Horizontal g) (height : UInt8) (dy : ℤ) :
    t.glyph height (g.shift 0 dy) = (t.glyph height g).map (·.shift 0 dy) := by
  cases t with
  | fixWidth width => exact g.setWidth_shift width dy
  | margins left right => exact g.addMargins_shift left right dy
  | trim => exact congrArg Except.ok (g.trimHorizontal_shift dy)
  | bold => exact g.bold_shift dy
  | shift dx dy' =>
      cases horizontal
      change Except.ok ((g.shift 0 dy).shift dx 0) = .ok ((g.shift dx 0).shift 0 dy)
      rw [Glyph.shift_shift, Glyph.shift_shift, add_comm, add_comm dy]
  | _ => exact absurd horizontal id

theorem Horizontal.inkRows_eq (horizontal : t.Horizontal g) (done : t.glyph height g = .ok m) :
    m.inkRows = g.inkRows := by
  cases t with
  | fixWidth width => exact Glyph.inkRows_of_setWidth horizontal done
  | margins left right => exact (Glyph.addMargins_eq_ok_iff.mp done).inkRows_eq
  | trim =>
      cases done
      exact g.inkRows_trimHorizontal
  | bold => exact Glyph.inkRows_of_bold done
  | shift dx dy' =>
      cases horizontal
      cases done
      exact g.inkRows_shift dx
  | _ => exact absurd horizontal id

/-- A glyph can be centered before a horizontal transform or after it, and both fail in the
same way. -/
theorem Horizontal.glyph_centered (horizontal : t.Horizontal g) :
    t.glyph g.height g.centered = (t.glyph g.height g).map Glyph.centered := by
  obtain ⟨dy, centered⟩ := g.exists_centered_eq_shift
  rw [centered g rfl rfl, horizontal.glyph_shift]
  cases result : t.glyph g.height g with
  | error cause => rfl
  | ok m =>
      have height := (Batch.sameRows result).height
      exact congrArg Except.ok (centered m height (horizontal.inkRows_eq result)).symm

end

end Batch

end BitmapFont
