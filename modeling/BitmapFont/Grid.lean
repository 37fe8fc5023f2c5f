/-!
Rectangular grids of cells.

A grid keeps its cells row by row. Reading outside the grid gives a default, and
changing a cell outside it has no effect. Main facts: `getD_modify` says that
changing one cell changes no other, and `ext_cells` that equally large grids with
equal cells are equal.
-/

namespace BitmapFont

/-- A grid of `width` columns and `height` rows. -/
structure Grid (α : Type) where
  width : Nat
  height : Nat
  /-- The cells row by row, top row first. -/
  cells : Array α
  size_cells : cells.size = width * height
deriving DecidableEq

namespace Grid

variable {α : Type}

/-! ### Addresses

The cell in column `x` of row `y` has the index `y * width + x`, and dividing by the width
leads back. -/

section Addresses
variable {width height x y x' y' : Nat}

/-- The index of a cell is one of the indices of the cells. -/
theorem index_lt (hx : x < width) (hy : y < height) : y * width + x < width * height := by
  calc y * width + x < y * width + width := by omega
    _ = (y + 1) * width := by rw [Nat.add_mul, Nat.one_mul]
    _ ≤ height * width := Nat.mul_le_mul_right _ hy
    _ = width * height := Nat.mul_comm ..

theorem index_div (hx : x < width) : (y * width + x) / width = y := by
  rw [Nat.mul_comm, Nat.mul_add_div (Nat.zero_lt_of_lt hx), Nat.div_eq_of_lt hx, Nat.add_zero]

theorem index_inj (hx : x < width) (hx' : x' < width) (h : y * width + x = y' * width + x') :
    x = x' ∧ y = y' := by
  constructor
  · calc x = (y * width + x) % width := (Nat.mul_add_mod_of_lt hx).symm
      _ = (y' * width + x') % width := by rw [h]
      _ = x' := Nat.mul_add_mod_of_lt hx'
  · calc y = (y * width + x) / width := (index_div hx).symm
      _ = (y' * width + x') / width := by rw [h]
      _ = y' := index_div hx'

end Addresses

/-! ### Cells -/

def InBounds (g : Grid α) (x y : Nat) : Prop :=
  x < g.width ∧ y < g.height

instance (g : Grid α) (x y : Nat) : Decidable (g.InBounds x y) :=
  inferInstanceAs (Decidable (_ ∧ _))

/-- The grid with the same value in every cell. -/
def filled (width height : Nat) (value : α) : Grid α where
  width := width
  height := height
  cells := Array.replicate (width * height) value
  size_cells := by simp

/-- The grid whose cell in column `x` of row `y` is `f x y`. -/
def ofFn (width height : Nat) (f : Nat → Nat → α) : Grid α where
  width := width
  height := height
  cells := Array.ofFn fun i : Fin (width * height) => f (i % width) (i / width)
  size_cells := by simp

/-- The cell in column `x` of row `y`, a default outside the grid. -/
def getD (g : Grid α) (x y : Nat) (default : α) : α :=
  if x < g.width ∧ y < g.height then g.cells.getD (y * g.width + x) default else default

/-- The grid with the cell in column `x` of row `y` changed; the grid itself if
there is no such cell. -/
def modify (g : Grid α) (x y : Nat) (f : α → α) : Grid α :=
  if x < g.width ∧ y < g.height then
    { g with
      cells := g.cells.modify (y * g.width + x) f
      size_cells := by rw [Array.size_modify, g.size_cells] }
  else g

@[simp] theorem width_modify (g : Grid α) (x y : Nat) (f : α → α) :
    (g.modify x y f).width = g.width := by
  unfold modify; split <;> rfl

@[simp] theorem height_modify (g : Grid α) (x y : Nat) (f : α → α) :
    (g.modify x y f).height = g.height := by
  unfold modify; split <;> rfl

theorem getD_of_not_inBounds {g : Grid α} {x y : Nat} (outside : ¬g.InBounds x y) (default : α) :
    g.getD x y default = default :=
  if_neg outside

@[simp] theorem getD_filled (width height : Nat) (value : α) (x y : Nat) :
    (filled width height value).getD x y value = value := by
  unfold getD
  split
  · rename_i inside
    have lt : y * width + x < width * height := index_lt inside.1 inside.2
    simp [filled, Array.getD, lt]
  · rfl

/-- Every cell of a built grid is the one asked for. -/
theorem getD_ofFn (width height : Nat) (f : Nat → Nat → α) (x y : Nat) (default : α) :
    (ofFn width height f).getD x y default =
      if x < width ∧ y < height then f x y else default := by
  unfold getD
  by_cases inside : x < width ∧ y < height
  · have lt : y * width + x < width * height := index_lt inside.1 inside.2
    have row : (y * width + x) / width = y := index_div inside.1
    have column : (y * width + x) % width = x := Nat.mul_add_mod_of_lt inside.1
    rw [if_pos inside]
    change (if x < width ∧ y < height then _ else _) = _
    rw [if_pos inside]
    simp [ofFn, Array.getD, lt, row, column]
  · rw [if_neg inside]
    exact if_neg inside

/-- Changing one cell changes no other. -/
theorem getD_modify (g : Grid α) {x y : Nat} (f : α → α) (inside : g.InBounds x y)
    (x' y' : Nat) (default : α) :
    (g.modify x y f).getD x' y' default =
      if x' = x ∧ y' = y then f (g.getD x y default) else g.getD x' y' default := by
  have lt : y * g.width + x < g.cells.size := g.size_cells ▸ index_lt inside.1 inside.2
  have inside_xy : x < g.width ∧ y < g.height := inside
  unfold getD
  simp only [width_modify, height_modify]
  unfold modify
  rw [if_pos inside_xy, if_pos inside_xy]
  by_cases inside' : x' < g.width ∧ y' < g.height
  · have lt' : y' * g.width + x' < g.cells.size := g.size_cells ▸ index_lt inside'.1 inside'.2
    rw [if_pos inside']
    by_cases same : x' = x ∧ y' = y
    · rw [if_pos same, same.1, same.2]
      simp [Array.getD, lt, Array.getElem_modify_self]
    · rw [if_neg same, if_pos inside']
      have other : y * g.width + x ≠ y' * g.width + x' := fun h =>
        have := index_inj inside.1 inside'.1 h
        same ⟨this.1.symm, this.2.symm⟩
      simp [Array.getD, lt', Array.getElem_modify_of_ne other]
  · have other : ¬(x' = x ∧ y' = y) := by
      rintro ⟨rfl, rfl⟩
      exact inside' inside
    rw [if_neg inside', if_neg other, if_neg inside']

/-- Changing a cell outside the grid changes nothing. -/
theorem modify_of_not_inBounds {g : Grid α} {x y : Nat} (f : α → α)
    (outside : ¬g.InBounds x y) : g.modify x y f = g :=
  if_neg outside

/-- Equally large grids with equal cells are equal. -/
theorem ext_cells {a b : Grid α} (default : α) (width : a.width = b.width)
    (height : a.height = b.height)
    (cells : ∀ x y, a.InBounds x y → a.getD x y default = b.getD x y default) : a = b := by
  have size_eq : a.cells.size = b.cells.size := by rw [a.size_cells, b.size_cells, width, height]
  have same : a.cells = b.cells := by
    refine Array.ext size_eq fun i ha hb => ?_
    have lt : i < a.width * a.height := a.size_cells ▸ ha
    have width_pos : 0 < a.width := Nat.pos_of_ne_zero fun h => by simp [h] at lt
    have hx : i % a.width < a.width := Nat.mod_lt _ width_pos
    have hy : i / a.width < a.height := Nat.div_lt_of_lt_mul lt
    have index : i / a.width * a.width + i % a.width = i := Nat.div_add_mod' i a.width
    have cell := cells _ _ ⟨hx, hy⟩
    have hx' : i % a.width < b.width := width ▸ hx
    have hy' : i / a.width < b.height := height ▸ hy
    unfold getD at cell
    rw [if_pos ⟨hx, hy⟩, if_pos ⟨hx', hy'⟩, ← width, index] at cell
    simpa [Array.getD, ha, hb] using cell
  cases a; cases b
  simp_all

end Grid

end BitmapFont
