import BitmapFont.Grid

/-!
Images and their one-bit form.

An image is read as a grid of brightnesses. Its one-bit form has the bright
pixels set, without dithering.

Pixels are found by an index of 32 bits. In images of at most 2³² pixels it is the
index in the grid: `MonoImage.pixel_eq_getD` and `MonoImage.setPixel_eq_modify` say
that such an image is read and changed like any other grid.
-/

namespace BitmapFont

/-- A grid of brightnesses from 0 (black) to 255 (white). -/
abbrev LumaImage := Grid UInt8

abbrev MonoImage := Grid Bool

/-- The lowest brightness of a set pixel. -/
def lumaCutoff : UInt8 := 128

namespace MonoImage

def blank (width height : Nat) : MonoImage :=
  Grid.filled width height false

/-- Where the pixel in column `x` of row `y` is kept, computed modulo 2³². -/
def cellIndex (image : MonoImage) (x y : Nat) : Nat :=
  (UInt32.ofNat y * UInt32.ofNat image.width + UInt32.ofNat x).toNat

/-- The pixel in column `x` of row `y`, clear outside the image. -/
def pixel (image : MonoImage) (x y : Nat) : Bool :=
  decide (x < image.width) && decide (y < image.height) &&
    image.cells.getD (image.cellIndex x y) false

/-- The image with one pixel set or cleared; the image itself if it lies
outside. -/
def setPixel (image : MonoImage) (x y : Nat) (value : Bool) : MonoImage :=
  if x < image.width ∧ y < image.height then
    let index := image.cellIndex x y
    { image with
      cells := image.cells.modify index fun _ => value
      size_cells := by rw [Array.size_modify, image.size_cells] }
  else image

/-- The image whose pixels are those of the picture `f`, written row by row. -/
def fromFn (width height : Nat) (f : Nat → Nat → Bool) : MonoImage :=
  (List.range height).foldl
    (fun image y => (List.range width).foldl (fun image x => image.setPixel x y (f x y)) image)
    (blank width height)

/-- The one-bit form of an image. -/
def ofLuma (image : LumaImage) : MonoImage :=
  fromFn image.width image.height fun x y => decide (lumaCutoff ≤ image.getD x y 0)

def countPixels (image : MonoImage) : Nat :=
  image.cells.count true

/-! ### Images of at most 2³² pixels -/

section
variable {image : MonoImage} (small : image.width * image.height ≤ UInt32.size) {x y : Nat}
include small

theorem cellIndex_eq (inside : image.InBounds x y) :
    image.cellIndex x y = y * image.width + x := by
  have fits := Nat.lt_of_lt_of_le (Grid.index_lt inside.1 inside.2) small
  rw [cellIndex, UInt32.toNat_add, UInt32.toNat_mul, UInt32.toNat_ofNat', UInt32.toNat_ofNat',
    UInt32.toNat_ofNat', ← Nat.mul_mod, ← Nat.add_mod]
  exact Nat.mod_eq_of_lt fits

theorem pixel_eq_getD : image.pixel x y = image.getD x y false := by
  unfold pixel
  by_cases inside : image.InBounds x y
  · rw [cellIndex_eq small inside, decide_eq_true inside.1, decide_eq_true inside.2]
    exact (if_pos inside).symm
  · have outside : ¬(x < image.width ∧ y < image.height) := inside
    rw [Grid.getD_of_not_inBounds inside, ← Bool.decide_and, decide_eq_false outside,
      Bool.false_and]

theorem setPixel_eq_modify (value : Bool) :
    image.setPixel x y value = image.modify x y fun _ => value := by
  unfold setPixel Grid.modify
  split
  · rename_i inside
    simp only [cellIndex_eq small inside]
  · rfl

end

end MonoImage

end BitmapFont
