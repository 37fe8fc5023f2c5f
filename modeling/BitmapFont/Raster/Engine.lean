import BitmapFont.Error
import BitmapFont.Raster.Coverage

/-!
Font engines: what a rasterization needs to know about a scalable font.

Positions are in pixels. Column 0 is the pen origin, row 0 the top of the line,
and rows are counted downwards. They are integers without bounds: where an engine
reports none above `2 ^ 29` in absolute value, sequences are the same in arithmetic of
32 bits.
-/

namespace BitmapFont

/-- Distances from the baseline to the top and the bottom of a line. -/
structure VerticalMetrics where
  ascent : Int
  descent : Int
deriving DecidableEq

/-- A box around ink; `right` and `bottom` lie just outside. -/
structure TextBounds where
  left : Int
  top : Int
  right : Int
  bottom : Int
deriving DecidableEq

namespace TextBounds

def width (b : TextBounds) : Int :=
  b.right - b.left

def height (b : TextBounds) : Int :=
  b.bottom - b.top

def Contains (b : TextBounds) (x y : Int) : Prop :=
  b.left ≤ x ∧ x < b.right ∧ b.top ≤ y ∧ y < b.bottom

instance (b : TextBounds) (x y : Int) : Decidable (b.Contains x y) :=
  inferInstanceAs (Decidable (_ ∧ _))

/-- The integers from `first` up to, but not including, `stop`. -/
def span (first stop : Int) : List Int :=
  (List.range (stop - first).toNat).map fun k : Nat => first + (k : Int)

/-- The positions in the box, row by row. -/
def positions (b : TextBounds) : List (Int × Int) :=
  (span b.top b.bottom).flatMap fun y => (span b.left b.right).map fun x => (x, y)

theorem mem_span {first stop x : Int} : x ∈ span first stop ↔ first ≤ x ∧ x < stop := by
  simp only [span, List.mem_map, List.mem_range]
  constructor
  · rintro ⟨k, lt, rfl⟩
    omega
  · rintro ⟨ge, lt⟩
    exact ⟨(x - first).toNat, by omega, by omega⟩

/-- The listed positions are those in the box. -/
theorem mem_positions {b : TextBounds} {x y : Int} :
    (x, y) ∈ b.positions ↔ b.Contains x y := by
  simp only [positions, List.mem_flatMap, List.mem_map, mem_span, Prod.mk.injEq, Contains]
  constructor
  · rintro ⟨y', ⟨top, bottom⟩, x', ⟨left, right⟩, rfl, rfl⟩
    exact ⟨left, right, top, bottom⟩
  · rintro ⟨left, right, top, bottom⟩
    exact ⟨y, ⟨top, bottom⟩, x, ⟨left, right⟩, rfl, rfl⟩

end TextBounds

/-- The shades that an engine is asked to draw. -/
inductive CoverageDepth where
  /-- Only 0 and 255. -/
  | oneBit
  /-- All shades. -/
  | gray
deriving DecidableEq, Repr

/-- A canvas after an engine drew a character on it. A failed drawing may have
left traces. -/
structure Drawing where
  canvas : Coverage
  failure : Option FontError

/-- A renderer of a scalable font at every pixel size. -/
structure FontEngine where
  /-- The metrics that the font itself declares. -/
  verticalMetrics : (size : UInt8) → Option VerticalMetrics
  /-- The box around the ink of a text drawn at the origin. -/
  textBounds : (text : List Char) → (size : UInt8) → TextBounds
  /-- Draws a character with its pen origin in column `originX` of row 0. -/
  renderChar : (c : Char) → (size : UInt8) → (originX : Int) → CoverageDepth → Coverage → Drawing

end BitmapFont
