import BitmapFont.Grid

/-!
Coverage canvases.

A font engine draws shades on a coverage canvas. Drawing keeps the darker of the
old and the new shade, and whatever lies beyond the canvas is clipped
(`Coverage.get_put`), so the order of drawing does not matter.
-/

namespace BitmapFont

/-- A canvas of shades from 0 (untouched) to 255 (covered). -/
abbrev Coverage := Grid UInt8

namespace Coverage

def blank (width height : Nat) : Coverage :=
  Grid.filled width height 0

/-- The shade in column `x` of row `y`, 0 outside the canvas. -/
def get (c : Coverage) (x y : Nat) : UInt8 :=
  c.getD x y 0

/-- The darker of two shades. -/
def darker (a b : UInt8) : UInt8 :=
  if a < b then b else a

/-- The canvas with a shade drawn at a signed position. -/
def put (c : Coverage) (x y : Int) (value : UInt8) : Coverage :=
  if x < 0 ∨ y < 0 then c else c.modify x.toNat y.toNat (darker · value)

@[simp] theorem width_put (c : Coverage) (x y : Int) (value : UInt8) :
    (c.put x y value).width = c.width := by
  unfold put; split <;> simp

@[simp] theorem height_put (c : Coverage) (x y : Int) (value : UInt8) :
    (c.put x y value).height = c.height := by
  unfold put; split <;> simp

/-- Drawing a shade darkens the cell at exactly its position. -/
theorem get_put (c : Coverage) (x y : Int) (value : UInt8) {x' y' : Nat}
    (inside : c.InBounds x' y') :
    (c.put x y value).get x' y' =
      if (x' : Int) = x ∧ (y' : Int) = y then darker (c.get x' y') value else c.get x' y' := by
  unfold put get
  split
  · rename_i negative
    have other : ¬((x' : Int) = x ∧ (y' : Int) = y) := by omega
    rw [if_neg other]
  · rename_i natural
    by_cases target : c.InBounds x.toNat y.toNat
    · rw [Grid.getD_modify _ _ target]
      by_cases same : (x' : Int) = x ∧ (y' : Int) = y
      · have hx : x' = x.toNat := by omega
        have hy : y' = y.toNat := by omega
        rw [if_pos same, if_pos ⟨hx, hy⟩, hx, hy]
      · have other : ¬(x' = x.toNat ∧ y' = y.toNat) := by omega
        rw [if_neg same, if_neg other]
    · rw [Grid.modify_of_not_inBounds _ target]
      have other : ¬((x' : Int) = x ∧ (y' : Int) = y) := by
        rintro ⟨hx, hy⟩
        have hx' : x.toNat = x' := by omega
        have hy' : y.toNat = y' := by omega
        rw [hx', hy'] at target
        exact target inside
      rw [if_neg other]

end Coverage

end BitmapFont
