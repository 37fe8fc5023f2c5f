import BitmapFont.Raster.BoxEngine
import Mathlib.Order.Bounds.Defs

/-!
What drawing leaves on a canvas.

A drawing is a list of strokes, each of one shade at one signed position. A cell of the
canvas ends up with the darkest shade drawn at it: it stays below a bound exactly if it
was below it before and all strokes at it are. So the order of the strokes does not matter
and neither does drawing one twice. Main facts:

* `Coverage.get_putAll_le_iff`, `Coverage.get_putAll_mem`: the shade of a cell is an upper
  bound of what is drawn at it, and nothing but what was there or is drawn;
* `Coverage.putAll_congr`: of a drawing only the strokes that meet the canvas count, each
  of them once;
* `Coverage.cells_darkest`: what any drawing leaves on an untouched canvas.
-/

namespace BitmapFont

/-- One shade drawn at one position. -/
structure Stroke where
  x : Int
  y : Int
  shade : UInt8
deriving DecidableEq

/-- The stroke lies on a canvas of this size. -/
def Stroke.Meets (stroke : Stroke) (width height : Nat) : Prop :=
  0 ≤ stroke.x ∧ stroke.x < width ∧ 0 ≤ stroke.y ∧ stroke.y < height

namespace Coverage

/-- The canvas after some strokes. -/
def putAll (canvas : Coverage) (strokes : List Stroke) : Coverage :=
  strokes.foldl (fun canvas stroke => canvas.put stroke.x stroke.y stroke.shade) canvas

theorem darker_le_iff (a b bound : UInt8) : darker a b ≤ bound ↔ a ≤ bound ∧ b ≤ bound := by
  unfold darker
  simp only [UInt8.le_iff_toNat_le, UInt8.lt_iff_toNat_lt]
  split <;> omega

theorem inBounds_put (canvas : Coverage) (u v : Int) (shade : UInt8) (x y : Nat) :
    (canvas.put u v shade).InBounds x y ↔ canvas.InBounds x y := by
  unfold Grid.InBounds
  rw [width_put, height_put]

theorem size_putAll (canvas : Coverage) (strokes : List Stroke) :
    (canvas.putAll strokes).width = canvas.width ∧
      (canvas.putAll strokes).height = canvas.height := by
  induction strokes generalizing canvas with
  | nil => exact ⟨rfl, rfl⟩
  | cons stroke rest ih =>
      have size := ih (canvas.put stroke.x stroke.y stroke.shade)
      rwa [width_put, height_put] at size

/-- A stroke that misses the canvas leaves it as it is. -/
theorem put_of_not_meets {canvas : Coverage} {stroke : Stroke}
    (missed : ¬stroke.Meets canvas.width canvas.height) :
    canvas.put stroke.x stroke.y stroke.shade = canvas := by
  unfold put
  split
  · rfl
  · rename_i natural
    apply Grid.modify_of_not_inBounds
    rintro ⟨column, row⟩
    apply missed
    unfold Stroke.Meets
    omega

/-- One stroke keeps a cell below a bound unless it is drawn there and darker. -/
theorem get_put_le_iff {canvas : Coverage} {x y : Nat} (inside : canvas.InBounds x y)
    (stroke : Stroke) (bound : UInt8) :
    (canvas.put stroke.x stroke.y stroke.shade).get x y ≤ bound ↔
      canvas.get x y ≤ bound ∧
        ((x : Int) = stroke.x → (y : Int) = stroke.y → stroke.shade ≤ bound) := by
  rw [get_put canvas stroke.x stroke.y stroke.shade inside]
  by_cases hit : (x : Int) = stroke.x ∧ (y : Int) = stroke.y
  · rw [if_pos hit, darker_le_iff]
    exact and_congr_right fun _ => ⟨fun le _ _ => le, fun le => le hit.1 hit.2⟩
  · rw [if_neg hit]
    exact ⟨fun le => ⟨le, fun column row => absurd ⟨column, row⟩ hit⟩, And.left⟩

/-- A cell becomes the darkest of what it was and of all strokes drawn at it. -/
theorem get_putAll_le_iff {canvas : Coverage} {x y : Nat} (inside : canvas.InBounds x y)
    (strokes : List Stroke) (bound : UInt8) :
    (canvas.putAll strokes).get x y ≤ bound ↔
      canvas.get x y ≤ bound ∧ ∀ stroke ∈ strokes,
        (x : Int) = stroke.x → (y : Int) = stroke.y → stroke.shade ≤ bound := by
  induction strokes generalizing canvas with
  | nil => simp [putAll]
  | cons stroke rest ih =>
      have inside' : (canvas.put stroke.x stroke.y stroke.shade).InBounds x y :=
        (inBounds_put canvas _ _ _ x y).mpr inside
      have further := ih inside'
      rw [get_put_le_iff inside stroke bound, and_assoc] at further
      rw [List.forall_mem_cons]
      exact further

/-- One stroke leaves the shade that was there, or its own if it is drawn there. -/
theorem get_put_mem {canvas : Coverage} {x y : Nat} (inside : canvas.InBounds x y)
    (stroke : Stroke) :
    (canvas.put stroke.x stroke.y stroke.shade).get x y = canvas.get x y ∨
      stroke = { x, y, shade := (canvas.put stroke.x stroke.y stroke.shade).get x y } := by
  rw [get_put canvas stroke.x stroke.y stroke.shade inside]
  split
  · rename_i hit
    unfold darker
    split
    · exact .inr (by rw [hit.1, hit.2])
    · exact .inl rfl
  · exact .inl rfl

/-- A cell shows the shade that was there, or one that was drawn at it. -/
theorem get_putAll_mem {canvas : Coverage} {x y : Nat} (inside : canvas.InBounds x y)
    (strokes : List Stroke) :
    (canvas.putAll strokes).get x y = canvas.get x y ∨
      { x, y, shade := (canvas.putAll strokes).get x y } ∈ strokes := by
  induction strokes generalizing canvas with
  | nil => exact .inl rfl
  | cons stroke rest ih =>
      have inside' : (canvas.put stroke.x stroke.y stroke.shade).InBounds x y :=
        (inBounds_put canvas _ _ _ x y).mpr inside
      change ((canvas.put stroke.x stroke.y stroke.shade).putAll rest).get x y = _ ∨
        { x, y, shade := ((canvas.put stroke.x stroke.y stroke.shade).putAll rest).get x y } ∈
          stroke :: rest
      rcases ih inside' with before | later
      · rw [before]
        rcases get_put_mem inside stroke with kept | drawn
        · exact .inl kept
        · exact .inr (List.mem_cons.mpr (.inl drawn.symm))
      · exact .inr (List.mem_cons_of_mem stroke later)

/-- Drawings with the same strokes on the canvas leave the same, in whatever order and
however often they make them. -/
theorem putAll_congr {canvas : Coverage} {strokes other : List Stroke}
    (same : ∀ stroke : Stroke, stroke.Meets canvas.width canvas.height →
      (stroke ∈ other ↔ stroke ∈ strokes)) :
    canvas.putAll other = canvas.putAll strokes := by
  obtain ⟨width, height⟩ := size_putAll canvas strokes
  obtain ⟨width', height'⟩ := size_putAll canvas other
  apply Grid.ext_cells 0 (width'.trans width.symm) (height'.trans height.symm)
  intro x y inside
  replace inside : canvas.InBounds x y := by
    unfold Grid.InBounds at inside ⊢
    rwa [← width', ← height']
  have drawnHere : ∀ stroke : Stroke, (x : Int) = stroke.x → (y : Int) = stroke.y →
      (stroke ∈ other ↔ stroke ∈ strokes) := by
    intro stroke column row
    apply same
    unfold Grid.InBounds at inside
    unfold Stroke.Meets
    omega
  have bounded : ∀ bound, (canvas.putAll other).get x y ≤ bound ↔
      (canvas.putAll strokes).get x y ≤ bound := by
    intro bound
    rw [get_putAll_le_iff inside, get_putAll_le_iff inside]
    refine and_congr_right fun _ => forall_congr' fun stroke => ?_
    constructor
    · intro le mem column row
      exact le ((drawnHere stroke column row).mpr mem) column row
    · intro le mem column row
      exact le ((drawnHere stroke column row).mp mem) column row
  exact UInt8.le_antisymm ((bounded _).mpr (UInt8.le_refl _)) ((bounded _).mp (UInt8.le_refl _))

theorem get_blank (width height x y : Nat) : (blank width height).get x y = 0 :=
  Grid.getD_filled width height 0 x y

/-- Strokes of one shade leave that shade on an untouched canvas. -/
theorem get_putAll_blank {width height x y : Nat} {strokes : List Stroke} {shade : UInt8}
    (column : x < width) (row : y < height) (drawn : { x, y, shade } ∈ strokes)
    (only : ∀ stroke ∈ strokes, (x : Int) = stroke.x → (y : Int) = stroke.y →
      stroke.shade = shade) : ((blank width height).putAll strokes).get x y = shade := by
  have inside : (blank width height).InBounds x y := ⟨column, row⟩
  have darkest := get_putAll_le_iff inside strokes
  rw [get_blank] at darkest
  apply UInt8.le_antisymm
  · refine (darkest shade).mpr ⟨UInt8.zero_le, ?_⟩
    intro stroke mem hx hy
    exact UInt8.le_of_eq (only stroke mem hx hy)
  · exact ((darkest _).mp (UInt8.le_refl _)).2 _ drawn rfl rfl

/-- Cells that no stroke is drawn at stay untouched. -/
theorem get_putAll_blank_of_missed {width height x y : Nat} {strokes : List Stroke}
    (column : x < width) (row : y < height)
    (missed : ∀ stroke ∈ strokes, (x : Int) = stroke.x → (y : Int) = stroke.y → False) :
    ((blank width height).putAll strokes).get x y = 0 := by
  have inside : (blank width height).InBounds x y := ⟨column, row⟩
  have darkest := get_putAll_le_iff inside strokes 0
  rw [get_blank] at darkest
  apply UInt8.le_antisymm
  · refine darkest.mpr ⟨UInt8.le_refl 0, ?_⟩
    intro stroke mem hx hy
    exact absurd hy (missed stroke mem hx)
  · exact UInt8.zero_le

/-- After any drawing on an untouched canvas, a cell shows the darkest shade drawn at
exactly its position, and 0 if there is none. Drawings that make the same strokes on the
canvas, in another order or repeatedly or with others beside it, leave the same canvas, for
a stroke beside the canvas reaches no cell. -/
theorem cells_darkest (width height : Nat) (strokes : List Stroke) :
    (∀ x y : Nat, x < width → y < height →
      IsGreatest (insert 0 {shade | { x, y, shade } ∈ strokes})
        (((blank width height).putAll strokes).get x y)) ∧
    (∀ x y : Nat, ¬(x < width ∧ y < height) →
      ((blank width height).putAll strokes).get x y = 0) ∧
    (∀ other : List Stroke, (∀ stroke : Stroke, stroke.Meets width height →
        (stroke ∈ other ↔ stroke ∈ strokes)) →
      (blank width height).putAll other = (blank width height).putAll strokes) ∧
    ∀ (canvas : Coverage) (stroke : Stroke), ¬stroke.Meets canvas.width canvas.height →
      canvas.put stroke.x stroke.y stroke.shade = canvas := by
  refine ⟨?_, ?_, fun other same => putAll_congr same, fun canvas stroke => put_of_not_meets⟩
  · intro x y column row
    have inside : (blank width height).InBounds x y := ⟨column, row⟩
    constructor
    · have shown := get_putAll_mem inside strokes
      rwa [get_blank] at shown
    · intro shade drawn
      rcases drawn with rfl | drawn
      · exact UInt8.zero_le
      · exact ((get_putAll_le_iff inside strokes _).mp (UInt8.le_refl _)).2 _ drawn rfl rfl
  · intro x y outside
    apply Grid.getD_of_not_inBounds
    obtain ⟨width', height'⟩ := size_putAll (blank width height) strokes
    unfold Grid.InBounds
    rw [width', height']
    exact outside

/-- Two strokes at one cell, and two beside a canvas of two columns, one of them where the
next row would start. -/
def clipped : List Stroke :=
  [⟨1, 0, 9⟩, ⟨2, 0, 80⟩, ⟨1, 0, 70⟩, ⟨-1, 1, 90⟩]

theorem cells_darkest_clipped :
    (1 < 2 ∧ 0 < 2) ∧
      IsGreatest (insert 0 {shade | { x := 1, y := 0, shade } ∈ clipped})
        (((blank 2 2).putAll clipped).get 1 0) ∧
      ((blank 2 2).putAll clipped).get 1 0 = 70 ∧ ((blank 2 2).putAll clipped).get 0 1 = 0 ∧
      (∀ stroke : Stroke, stroke.Meets 2 2 →
        (stroke ∈ [⟨1, 0, 70⟩, ⟨0, 2, 5⟩, ⟨1, 0, 9⟩, ⟨1, 0, 70⟩] ↔ stroke ∈ clipped)) ∧
      (blank 2 2).putAll [⟨1, 0, 70⟩, ⟨0, 2, 5⟩, ⟨1, 0, 9⟩, ⟨1, 0, 70⟩] =
        (blank 2 2).putAll clipped ∧
      ¬Stroke.Meets ⟨2, 0, 80⟩ 2 2 ∧ (blank 2 2).put 2 0 80 = blank 2 2 := by
  have same : ∀ stroke : Stroke, stroke.Meets 2 2 →
      (stroke ∈ [⟨1, 0, 70⟩, ⟨0, 2, 5⟩, ⟨1, 0, 9⟩, ⟨1, 0, 70⟩] ↔ stroke ∈ clipped) := by
    rintro ⟨x, y, shade⟩ meets
    simp only [Stroke.Meets] at meets
    simp only [clipped, List.mem_cons, Stroke.mk.injEq, List.not_mem_nil]
    grind
  have beside : ¬Stroke.Meets ⟨2, 0, 80⟩ 2 2 := by simp [Stroke.Meets]
  obtain ⟨greatest, -, equal, unmoved⟩ := cells_darkest 2 2 clipped
  exact ⟨by decide, greatest 1 0 (by decide) (by decide), by decide, by decide, same,
    equal _ same, beside, unmoved (blank 2 2) ⟨2, 0, 80⟩ beside⟩

end Coverage

end BitmapFont
