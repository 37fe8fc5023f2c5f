import BitmapFont.Proofs.Text.Drawing
import Mathlib.Algebra.GroupWithZero.Nat

/-!
Texts put together.

Rendering two texts with a line feed between them puts the second canvas below the
first, and rendering two texts of one line each puts the second to the right of the
first. The three runs draw on canvases of different sizes; what they share is where
the pen places glyphs. Main facts:

* `Sequence.mem_textInk_feed`, `Sequence.mem_textInk_plain`: the ink of the whole is
  the ink of the parts, moved down or to the right;
* `Sequence.renderText_joined`: the canvas of the whole in terms of those of the parts.
-/

namespace BitmapFont

/-! ### Moving right -/

/-- The pen `columns` further to the right, on a line with as much text before it. -/
def Pen.right (pen : Pen) (columns : Nat) : Pen where
  x := columns + pen.x
  line := pen.line
  width := columns + pen.width

/-- The same glyph `columns` further to the right. -/
def Placement.right (p : Placement) (columns : Nat) : Placement :=
  { p with x := columns + p.x }

namespace Sequence

variable {q : Sequence} {codepoints : List UInt8}

theorem advance_right (q : Sequence) (pen : Pen) (columns : Nat) {codepoint : UInt8}
    (drawn : IsDrawn codepoint) :
    q.advance (pen.right columns) codepoint = (q.advance pen codepoint).right columns := by
  rw [advance_of_isDrawn drawn, advance_of_isDrawn drawn]
  simp only [Pen.right, Pen.moveTo, Nat.add_assoc, Nat.add_max_add_left]

theorem finalPen_right (q : Sequence) (pen : Pen) (columns : Nat)
    (plain : ∀ codepoint ∈ codepoints, IsDrawn codepoint) :
    q.finalPen (pen.right columns) codepoints = (q.finalPen pen codepoints).right columns := by
  induction codepoints generalizing pen with
  | nil => rfl
  | cons codepoint rest ih =>
      obtain ⟨drawn, plain⟩ := List.forall_mem_cons.mp plain
      rw [finalPen_cons, advance_right q pen columns drawn, ih _ plain, finalPen_cons]

theorem placements_right (q : Sequence) (pen : Pen) (columns : Nat)
    (plain : ∀ codepoint ∈ codepoints, IsDrawn codepoint) :
    q.placements (pen.right columns) codepoints =
      (q.placements pen codepoints).map (·.right columns) := by
  induction codepoints generalizing pen with
  | nil => rfl
  | cons codepoint rest ih =>
      obtain ⟨drawn, plain⟩ := List.forall_mem_cons.mp plain
      rw [placements_cons, placements_cons, if_pos drawn, if_pos drawn,
        advance_right q pen columns drawn, ih _ plain]
      rfl

/-- Columns that glyphs take side by side. -/
def breadth (q : Sequence) (codepoints : List UInt8) : Nat :=
  (codepoints.map fun codepoint => (q.glyph codepoint).width.toNat).sum

/-- On a single line without tabs the pen has come as far as the line is wide, and both
grow by what the glyphs take. -/
theorem finalPen_plain (q : Sequence) (columns : Nat)
    (plain : ∀ codepoint ∈ codepoints, IsDrawn codepoint) :
    q.finalPen (Pen.start.right columns) codepoints =
      Pen.start.right (columns + q.breadth codepoints) := by
  induction codepoints generalizing columns with
  | nil => rfl
  | cons codepoint rest ih =>
      obtain ⟨drawn, plain⟩ := List.forall_mem_cons.mp plain
      have moved : q.advance (Pen.start.right columns) codepoint =
          Pen.start.right (columns + (q.glyph codepoint).width.toNat) := by
        rw [advance_of_isDrawn drawn]
        simp [Pen.right, Pen.moveTo, Pen.start]
      rw [finalPen_cons, moved, ih _ plain, breadth, breadth, List.map_cons, List.sum_cons,
        Nat.add_assoc]

theorem finalPen_eq_right (plain : ∀ codepoint ∈ codepoints, IsDrawn codepoint) :
    q.finalPen .start codepoints = Pen.start.right (q.finalPen .start codepoints).width := by
  have final := q.finalPen_plain 0 plain
  change q.finalPen .start codepoints = _ at final
  rw [final]
  rfl

/-! ### Ink -/

theorem lineTop_add (q : Sequence) (m n : Nat) : q.lineTop (m + n) = q.lineTop m + q.lineTop n :=
  Nat.add_mul ..

theorem mem_inkAt_lower {p : Placement} {lines x y : Nat} :
    (x, y) ∈ q.inkAt (p.lower lines) ↔
      q.lineTop lines ≤ y ∧ (x, y - q.lineTop lines) ∈ q.inkAt p := by
  rw [mem_inkAt, mem_inkAt]
  simp only [Placement.lower, lineTop_add, Nat.sub_sub]
  constructor
  · rintro ⟨left, top, set⟩
    exact ⟨by omega, left, by omega, set⟩
  · rintro ⟨down, left, top, set⟩
    exact ⟨left, by omega, set⟩

theorem mem_inkAt_right {p : Placement} {columns x y : Nat} :
    (x, y) ∈ q.inkAt (p.right columns) ↔ columns ≤ x ∧ (x - columns, y) ∈ q.inkAt p := by
  rw [mem_inkAt, mem_inkAt]
  simp only [Placement.right, Nat.sub_sub]
  constructor
  · rintro ⟨left, top, set⟩
    exact ⟨by omega, by omega, top, set⟩
  · rintro ⟨away, left, top, set⟩
    exact ⟨by omega, top, set⟩

/-- The line after a text starts below its canvas. -/
theorem lineTop_succ (q : Sequence) (text : List Char) :
    q.lineTop ((q.finalPen .start (latin1 text)).line + 1) =
      (q.renderText text).height + lineGap := by
  rw [height_renderText, lineTop, textHeight, Nat.mul_add, Nat.add_one_mul _ lineGap, Nat.add_assoc]

theorem textHeight_add (q : Sequence) (m n : Nat) :
    q.textHeight (m + n) = q.lineTop m + q.textHeight n := by
  simp only [textHeight, lineTop, Nat.add_mul, Nat.mul_add]
  omega

theorem mem_textInk_feed {a b : List Char} {x y : Nat} :
    (x, y) ∈ q.textInk (a ++ '\n' :: b) ↔ (x, y) ∈ q.textInk a ∨
      (q.renderText a).height + lineGap ≤ y ∧
        (x, y - ((q.renderText a).height + lineGap)) ∈ q.textInk b := by
  rw [← lineTop_succ]
  simp only [textInk, latin1_append, latin1_newline, placements_feed, List.flatMap_append,
    List.mem_append, List.flatMap_map, List.mem_flatMap, mem_inkAt_lower]
  exact or_congr_right ((exists_congr fun _ => and_left_comm).trans exists_and_left)

theorem mem_textInk_plain {a b : List Char} {x y : Nat}
    (first : ∀ c ∈ a, c ≠ '\n' ∧ c ≠ '\t') (second : ∀ c ∈ b, c ≠ '\n' ∧ c ≠ '\t') :
    (x, y) ∈ q.textInk (a ++ b) ↔ (x, y) ∈ q.textInk a ∨
      (q.renderText a).width ≤ x ∧ (x - (q.renderText a).width, y) ∈ q.textInk b := by
  have placed : q.placements .start (latin1 (a ++ b)) = q.placements .start (latin1 a) ++
      (q.placements .start (latin1 b)).map (·.right (q.renderText a).width) := by
    rw [latin1_append, placements_append, finalPen_eq_right (isDrawn_of_mem_latin1 first),
      placements_right _ _ _ (isDrawn_of_mem_latin1 second), width_renderText]
  simp only [textInk, placed, List.flatMap_append, List.mem_append, List.flatMap_map,
    List.mem_flatMap, mem_inkAt_right]
  exact or_congr_right ((exists_congr fun _ => and_left_comm).trans exists_and_left)

end Sequence

/-! ### Canvases -/

/-- A canvas shows two others, one above the other with clear rows between them. -/
structure TextCanvas.Stacks (c above below : TextCanvas) (gap : Nat) : Prop where
  width : c.width = max above.width below.width
  height : c.height = above.height + gap + below.height
  pixels : ∀ x y, c.pixel x y =
    if y < above.height then above.pixel x y
    else if y < above.height + gap then false
    else below.pixel x (y - above.height - gap)

/-- A canvas shows two others of one height side by side. -/
structure TextCanvas.Abuts (c left right : TextCanvas) : Prop where
  width : c.width = left.width + right.width
  height : c.height = left.height ∧ c.height = right.height
  pixels : ∀ x y, c.pixel x y =
    if x < left.width then left.pixel x y else right.pixel (x - left.width) y

namespace Sequence

variable {q : Sequence}

theorem renderText_feed (q : Sequence) (a b : List Char) :
    (q.renderText (a ++ '\n' :: b)).Stacks (q.renderText a) (q.renderText b) lineGap where
  width := by
    simp only [width_renderText, latin1_append, latin1_newline, finalPen_feed, Pen.lower]
  height := by
    rw [← lineTop_succ, height_renderText, height_renderText, latin1_append, latin1_newline,
      finalPen_feed, Pen.lower, textHeight_add]
  pixels := by
    intro x y
    rw [Bool.eq_iff_iff, pixel_renderText_iff, mem_textInk_feed]
    by_cases above : y < (q.renderText a).height
    · rw [if_pos above, pixel_renderText_iff, or_iff_left]
      rintro ⟨down, -⟩
      omega
    · have clear : (x, y) ∉ q.textInk a := fun inked => above (inBounds_of_mem_textInk inked).2
      rw [if_neg above, or_iff_right clear]
      by_cases between : y < (q.renderText a).height + lineGap
      · rw [if_pos between, iff_false_left (by omega)]
        exact Bool.false_ne_true
      · rw [if_neg between, pixel_renderText_iff, Nat.sub_sub]
        exact and_iff_right (Nat.le_of_not_lt between)

theorem renderText_plain {a b : List Char} (first : ∀ c ∈ a, c ≠ '\n' ∧ c ≠ '\t')
    (second : ∀ c ∈ b, c ≠ '\n' ∧ c ≠ '\t') :
    (q.renderText (a ++ b)).Abuts (q.renderText a) (q.renderText b) := by
  have finalA := finalPen_eq_right (q := q) (isDrawn_of_mem_latin1 first)
  have finalB := finalPen_eq_right (q := q) (isDrawn_of_mem_latin1 second)
  have final : q.finalPen .start (latin1 (a ++ b)) =
      (Pen.start.right (q.renderText b).width).right (q.renderText a).width := by
    rw [latin1_append, finalPen_append, finalA,
      finalPen_right _ _ _ (isDrawn_of_mem_latin1 second), finalB, ← width_renderText,
      ← width_renderText]
  refine ⟨?_, ⟨?_, ?_⟩, ?_⟩
  · rw [width_renderText, final]
    rfl
  · rw [height_renderText, final, height_renderText, finalA]
    rfl
  · rw [height_renderText, final, height_renderText, finalB]
    rfl
  · intro x y
    rw [Bool.eq_iff_iff, pixel_renderText_iff, mem_textInk_plain first second]
    by_cases left : x < (q.renderText a).width
    · rw [if_pos left, pixel_renderText_iff, or_iff_left]
      rintro ⟨away, -⟩
      omega
    · have clear : (x, y) ∉ q.textInk a := fun inked => left (inBounds_of_mem_textInk inked).1
      rw [if_neg left, or_iff_right clear, pixel_renderText_iff]
      exact and_iff_right (Nat.le_of_not_lt left)

/-- Rendering puts texts together: a line feed between two texts stacks their canvases two
rows apart, and two texts without line feeds and tabs stand side by side. -/
theorem renderText_joined (q : Sequence) (a b : List Char) :
    (q.renderText (a ++ '\n' :: b)).Stacks (q.renderText a) (q.renderText b) 2 ∧
      ((∀ c ∈ a ++ b, c ≠ '\n' ∧ c ≠ '\t') →
        (q.renderText (a ++ b)).Abuts (q.renderText a) (q.renderText b)) := by
  refine ⟨q.renderText_feed a b, ?_⟩
  intro plain
  obtain ⟨first, second⟩ := List.forall_mem_append.mp plain
  exact renderText_plain first second

/-- Glyphs with a dash in the middle row, and a narrow `I` that is all ink. -/
def barred : Sequence :=
  ofFn 3 2 3 (by decide)
    (fun codepoint => Glyph.fromFn codepoint (if codepoint = 73 then 1 else 2) 3 fun _ row =>
      codepoint = 73 ∨ row = 1)
    fun _ => rfl

theorem renderText_joined_barred :
    (∀ c ∈ ['I', '-'] ++ ['I'], c ≠ '\n' ∧ c ≠ '\t') ∧
      (barred.renderText ['I', '-', 'I']).Abuts (barred.renderText ['I', '-'])
        (barred.renderText ['I']) ∧
      (barred.renderText ['I', '-', 'I']).asciiArt = "#..#\n####\n#..#\n" := by
  have plain : ∀ c ∈ ['I', '-'] ++ ['I'], c ≠ '\n' ∧ c ≠ '\t' := by simp
  have joined := barred.renderText_joined ['I', '-'] ['I']
  exact ⟨plain, joined.2 plain, by decide +kernel⟩

end Sequence

end BitmapFont
