import BitmapFont.Glyph.Basic
import BitmapFont.Grid

/-!
One-bit canvases for text.

A canvas holds the pixels of rendered text. Drawing a glyph sets the pixels under
its ink and clears none, and ink beyond the canvas is lost.
-/

namespace BitmapFont

abbrev TextCanvas := Grid Bool

namespace TextCanvas

def blank (width height : Nat) : TextCanvas :=
  Grid.filled width height false

/-- The pixel in column `x` of row `y`, clear outside the canvas. -/
def pixel (c : TextCanvas) (x y : Nat) : Bool :=
  c.getD x y false

/-- The canvas with one pixel set; the canvas itself if it lies outside. -/
def set (c : TextCanvas) (x y : Nat) : TextCanvas :=
  c.modify x y fun _ => true

/-- The positions of the ink of a glyph. -/
def inkOf (g : Glyph) : List (Nat × Nat) :=
  (List.range g.height.toNat).flatMap fun y =>
    ((List.range g.width.toNat).filter fun x => g.pixel x y).map fun x => (x, y)

/-- The canvas with a glyph drawn with its top left pixel at `(left, top)`. -/
def drawGlyph (c : TextCanvas) (g : Glyph) (left top : Nat) : TextCanvas :=
  (inkOf g).foldl (fun c (x, y) => c.set (left + x) (top + y)) c

/-- One row of a canvas in `#` for set and `.` for clear pixels. -/
def artLine (c : TextCanvas) (y : Nat) : List Char :=
  (List.range c.width).map fun x => if c.pixel x y then '#' else '.'

/-- The rows of a canvas, each ended by a line feed. -/
def asciiArt (c : TextCanvas) : String :=
  String.ofList ((List.range c.height).flatMap fun y => c.artLine y ++ ['\n'])

/-- The ink of a glyph is the set of its set pixels. -/
theorem mem_inkOf {g : Glyph} {x y : Nat} : (x, y) ∈ inkOf g ↔ g.pixel x y = true := by
  simp only [inkOf, List.mem_flatMap, List.mem_map, List.mem_filter, List.mem_range, Prod.mk.injEq]
  constructor
  · rintro ⟨y', _, x', ⟨_, set⟩, rfl, rfl⟩
    exact set
  · intro set
    have inside := Glyph.inBounds_of_pixel set
    exact ⟨y, inside.2, x, ⟨inside.1, set⟩, rfl, rfl⟩

@[simp] theorem width_set (c : TextCanvas) (x y : Nat) : (c.set x y).width = c.width :=
  Grid.width_modify ..

@[simp] theorem height_set (c : TextCanvas) (x y : Nat) : (c.set x y).height = c.height :=
  Grid.height_modify ..

/-- Setting a pixel of the canvas sets no other. -/
theorem pixel_set {c : TextCanvas} {x y : Nat} (inside : c.InBounds x y) (x' y' : Nat) :
    (c.set x y).pixel x' y' = (decide (x' = x ∧ y' = y) || c.pixel x' y') := by
  unfold set pixel
  rw [Grid.getD_modify _ _ inside]
  by_cases same : x' = x ∧ y' = y <;> simp [same]

end TextCanvas

end BitmapFont
