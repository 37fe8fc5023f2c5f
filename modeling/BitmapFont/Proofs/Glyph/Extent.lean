import BitmapFont.Proofs.Glyph.Representation
import BitmapFont.Proofs.Glyph.Rows
import Mathlib.Order.Lattice.Nat

/-!
Where the ink of a glyph begins and ends.

Trimming asks for the first and the last column or row with ink. It looks at the columns
pixel by pixel and at the rows byte by byte; that both see the same ink is
`Glyph.isColumnEmpty_iff` and `Glyph.isRowEmpty_iff`. Main facts:

* `find?_range_of_isLeast`, `find?_reverse_range_of_isGreatest`: a search finds the least
  place that passes a test, and a search from the other end the greatest;
* `Glyph.InkBetween.firstInkColumn?_eq`, `Glyph.InkBetween.lastInkColumn?_eq`: the ends of
  the ink from left to right;
* `Glyph.InkRowsBetween.firstInkRow?_eq`, `Glyph.InkRowsBetween.lastInkRow?_eq`: the ends
  of the ink from top to bottom.
-/

namespace BitmapFont

/-! ### Searching a range -/

section
variable {s : Set ℕ} {p : ℕ → Bool} {n i : ℕ}

theorem exists_isLeast_isGreatest (bounded : ∀ i ∈ s, i < n) (inhabited : s.Nonempty) :
    ∃ first last, IsLeast s first ∧ IsGreatest s last := by
  have above : BddAbove s := ⟨n, fun i mem => (bounded i mem).le⟩
  refine ⟨sInf s, sSup s, ⟨Nat.sInf_mem inhabited, ?_⟩, ⟨Nat.sSup_mem inhabited above, ?_⟩⟩
  · intro i mem
    exact Nat.sInf_le mem
  · intro i mem
    exact le_csSup above mem

/-- A search finds the least place that passes the test. -/
theorem find?_range_of_isLeast (marks : ∀ i, p i = true ↔ i ∈ s) (bounded : ∀ i ∈ s, i < n)
    (least : IsLeast s i) : (List.range n).find? p = some i := by
  rw [List.find?_range_eq_some]
  refine ⟨(marks i).mpr least.1, List.mem_range.mpr (bounded i least.1), ?_⟩
  intro j before
  rw [Bool.not_eq_true', ← Bool.not_eq_true, marks]
  intro mem
  exact Nat.not_lt.mpr (least.2 mem) before

/-- A search from the other end finds the greatest place that passes the test. -/
theorem find?_reverse_range_of_isGreatest (marks : ∀ i, p i = true ↔ i ∈ s)
    (bounded : ∀ i ∈ s, i < n) (greatest : IsGreatest s i) :
    (List.range n).reverse.find? p = some i := by
  induction n with
  | zero => exact absurd (bounded i greatest.1) (Nat.not_lt_zero i)
  | succ n ih =>
      rw [List.range_succ, List.reverse_append, List.reverse_singleton, List.singleton_append]
      rcases Nat.lt_succ_iff_lt_or_eq.mp (bounded i greatest.1) with before | rfl
      · have skipped : ¬ p n = true := by
          rw [marks]
          intro mem
          exact Nat.not_lt.mpr (greatest.2 mem) before
        rw [List.find?_cons_of_neg skipped]
        exact ih fun j mem => Nat.lt_of_le_of_lt (greatest.2 mem) before
      · rw [List.find?_cons_of_pos ((marks i).mpr greatest.1)]

/-- A search fails if no place passes the test. -/
theorem find?_range_of_eq_empty (marks : ∀ i, p i = true ↔ i ∈ s) (empty : s = ∅) :
    (List.range n).find? p = none := by
  rw [List.find?_range_eq_none]
  intro i _
  rw [Bool.not_eq_true', ← Bool.not_eq_true, marks, empty]
  exact Set.notMem_empty i

end

namespace Glyph

/-! ### Columns with ink -/

/-- The columns that hold ink. -/
def inkColumns (g : Glyph) : Set ℕ :=
  {x | ∃ y, g.pixel x y = true}

/-- The ink of a glyph reaches from one column to another. -/
structure InkBetween (g : Glyph) (first last : ℕ) : Prop where
  least : IsLeast g.inkColumns first
  greatest : IsGreatest g.inkColumns last

/-! ### Rows with ink -/

/-- The rows that hold ink. -/
def inkRows (g : Glyph) : Set ℕ :=
  {y | ∃ x, g.pixel x y = true}

/-- The ink of a glyph reaches from one row to another. -/
structure InkRowsBetween (g : Glyph) (first last : ℕ) : Prop where
  least : IsLeast g.inkRows first
  greatest : IsGreatest g.inkRows last

/-- Either there is a set pixel or all pixels are clear. -/
theorem inked_or_clear (g : Glyph) :
    (∃ x y, g.pixel x y = true) ∨ ∀ x y, g.pixel x y = false := by
  by_cases inked : ∃ x y, g.pixel x y = true
  · exact .inl inked
  · exact .inr fun x y => Bool.eq_false_iff.mpr fun set => inked ⟨x, y, set⟩

section
variable {g : Glyph} {x y first last : ℕ}

/-! ### Ends of the ink from left to right -/

theorem isColumnEmpty_iff : g.isColumnEmpty x = true ↔ x ∉ g.inkColumns := by
  rw [g.bytesAgree.columnEmpty]
  constructor
  · rintro clear ⟨y, set⟩
    rw [clear y (inBounds_of_pixel set).2] at set
    cases set
  · intro clear y _
    exact Bool.eq_false_iff.mpr fun set => clear ⟨y, set⟩

theorem not_isColumnEmpty_iff : (!g.isColumnEmpty x) = true ↔ x ∈ g.inkColumns := by
  rw [Bool.not_eq_true', ← Bool.not_eq_true, isColumnEmpty_iff, not_not]

theorem lt_width_of_mem (inked : x ∈ g.inkColumns) : x < g.width.toNat := by
  obtain ⟨y, set⟩ := inked
  exact (inBounds_of_pixel set).1

/-- The ink of a glyph has a first and a last column. -/
theorem exists_inkBetween (set : g.pixel x y = true) : ∃ first last, g.InkBetween first last := by
  obtain ⟨first, last, least, greatest⟩ :=
    exists_isLeast_isGreatest (fun _ => lt_width_of_mem) ⟨x, (⟨y, set⟩ : x ∈ g.inkColumns)⟩
  exact ⟨first, last, least, greatest⟩

theorem exists_inkBetween_or_clear (g : Glyph) :
    (∃ first last, g.InkBetween first last) ∨ ∀ x y, g.pixel x y = false := by
  rcases g.inked_or_clear with ⟨x, y, set⟩ | clear
  · exact .inl (exists_inkBetween set)
  · exact .inr clear

theorem InkBetween.le (between : g.InkBetween first last) : first ≤ last :=
  between.least.2 between.greatest.1

theorem InkBetween.lt_width (between : g.InkBetween first last) : last < g.width.toNat :=
  lt_width_of_mem between.greatest.1

theorem InkBetween.inside (between : g.InkBetween first last) (set : g.pixel x y = true) :
    first ≤ x ∧ x ≤ last :=
  ⟨between.least.2 ⟨y, set⟩, between.greatest.2 ⟨y, set⟩⟩

theorem InkBetween.firstInkColumn?_eq (between : g.InkBetween first last) :
    g.firstInkColumn? = some first :=
  find?_range_of_isLeast (fun _ => not_isColumnEmpty_iff) (fun _ => lt_width_of_mem) between.least

theorem InkBetween.lastInkColumn?_eq (between : g.InkBetween first last) :
    g.lastInkColumn? = some last :=
  find?_reverse_range_of_isGreatest (fun _ => not_isColumnEmpty_iff) (fun _ => lt_width_of_mem)
    between.greatest

theorem firstInkColumn?_of_clear (clear : ∀ x y, g.pixel x y = false) :
    g.firstInkColumn? = none := by
  apply find?_range_of_eq_empty fun _ => not_isColumnEmpty_iff
  apply Set.eq_empty_of_forall_notMem
  rintro x ⟨y, set⟩
  rw [clear x y] at set
  cases set

/-! ### Ends of the ink from top to bottom -/

theorem not_isRowEmpty_iff : (!g.isRowEmpty y) = true ↔ y ∈ g.inkRows := by
  rw [Bool.not_eq_true', ← Bool.not_eq_true, isRowEmpty_iff]
  simp only [inkRows, Set.mem_ofPred_eq, not_forall, Bool.not_eq_false]

theorem inkRows_eq_empty_iff : g.inkRows = ∅ ↔ ∀ x y, g.pixel x y = false := by
  rw [Set.eq_empty_iff_forall_notMem]
  constructor
  · intro empty x y
    exact Bool.eq_false_iff.mpr fun set => empty y ⟨x, set⟩
  · rintro clear y ⟨x, set⟩
    rw [clear x y] at set
    cases set

theorem lt_height_of_mem (inked : y ∈ g.inkRows) : y < g.height.toNat := by
  obtain ⟨x, set⟩ := inked
  exact (inBounds_of_pixel set).2

/-- The ink of a glyph has a first and a last row. -/
theorem exists_inkRowsBetween (set : g.pixel x y = true) :
    ∃ first last, g.InkRowsBetween first last := by
  obtain ⟨first, last, least, greatest⟩ :=
    exists_isLeast_isGreatest (fun _ => lt_height_of_mem) ⟨y, (⟨x, set⟩ : y ∈ g.inkRows)⟩
  exact ⟨first, last, least, greatest⟩

theorem exists_inkRowsBetween_or_clear (g : Glyph) :
    (∃ first last, g.InkRowsBetween first last) ∨ ∀ x y, g.pixel x y = false := by
  rcases g.inked_or_clear with ⟨x, y, set⟩ | clear
  · exact .inl (exists_inkRowsBetween set)
  · exact .inr clear

theorem InkRowsBetween.le (between : g.InkRowsBetween first last) : first ≤ last :=
  between.least.2 between.greatest.1

theorem InkRowsBetween.lt_height (between : g.InkRowsBetween first last) :
    last < g.height.toNat :=
  lt_height_of_mem between.greatest.1

theorem InkRowsBetween.inside (between : g.InkRowsBetween first last)
    (set : g.pixel x y = true) : first ≤ y ∧ y ≤ last :=
  ⟨between.least.2 ⟨x, set⟩, between.greatest.2 ⟨x, set⟩⟩

theorem InkRowsBetween.firstInkRow?_eq (between : g.InkRowsBetween first last) :
    g.firstInkRow? = some first :=
  find?_range_of_isLeast (fun _ => not_isRowEmpty_iff) (fun _ => lt_height_of_mem) between.least

theorem InkRowsBetween.lastInkRow?_eq (between : g.InkRowsBetween first last) :
    g.lastInkRow? = some last :=
  find?_reverse_range_of_isGreatest (fun _ => not_isRowEmpty_iff) (fun _ => lt_height_of_mem)
    between.greatest

theorem firstInkRow?_of_clear (clear : ∀ x y, g.pixel x y = false) : g.firstInkRow? = none :=
  find?_range_of_eq_empty (fun _ => not_isRowEmpty_iff) (inkRows_eq_empty_iff.mpr clear)

end

end Glyph

end BitmapFont
