import BitmapFont.Text.Render

/-!
Where the ink of a text goes.

The pen leads through the codepoints of a text and places glyphs, and the placed glyphs
are drawn one after the other on a canvas whose size the final pen determines. Drawing
beyond the canvas would be lost without notice, and glyphs could be drawn over each
other. Main facts:

* `Sequence.finalPen_feed`, `Sequence.placements_feed`: what follows a line feed is set
  like a text of its own, only further down;
* `Sequence.inside_of_mem_placements`, `Sequence.placements_pairwise`: every glyph has
  room on the canvas, and every glyph stands after the ones before it;
* `Sequence.pixel_renderText_iff`: the canvas shows the ink of the placed glyphs and
  nothing else.
-/

namespace BitmapFont

/-! ### Characters -/

/-- A character selects the codepoint of its own number, if there is one. -/
theorem latin1?_eq_some_iff {c : Char} {codepoint : UInt8} :
    latin1? c = some codepoint ↔ codepoint.toNat = c.toNat := by
  unfold latin1?
  split
  · rename_i small
    rw [Option.some_inj, ← UInt8.toNat_inj, UInt8.toNat_ofNat', Nat.mod_eq_of_lt small, eq_comm]
  · rename_i large
    have bound := codepoint.toNat_lt
    simp only [reduceCtorEq, false_iff]
    omega

theorem eq_lineFeed_iff {c : Char} {codepoint : UInt8} (selected : codepoint.toNat = c.toNat) :
    codepoint = lineFeed ↔ c = '\n' := by
  rw [← UInt8.toNat_inj, selected]
  exact Char.toNat_inj (d := '\n')

theorem eq_tabulator_iff {c : Char} {codepoint : UInt8} (selected : codepoint.toNat = c.toNat) :
    codepoint = tabulator ↔ c = '\t' := by
  rw [← UInt8.toNat_inj, selected]
  exact Char.toNat_inj (d := '\t')

theorem isDrawn_iff {c : Char} {codepoint : UInt8} (selected : codepoint.toNat = c.toNat) :
    Sequence.IsDrawn codepoint ↔ c ≠ '\n' ∧ c ≠ '\t' := by
  rw [Sequence.IsDrawn, Ne, Ne, eq_lineFeed_iff selected, eq_tabulator_iff selected]

theorem latin1_append (a b : List Char) : latin1 (a ++ b) = latin1 a ++ latin1 b :=
  List.filterMap_append

theorem latin1_newline (text : List Char) : latin1 ('\n' :: text) = lineFeed :: latin1 text := rfl

theorem isDrawn_of_mem_latin1 {text : List Char} (plain : ∀ c ∈ text, c ≠ '\n' ∧ c ≠ '\t') :
    ∀ codepoint ∈ latin1 text, Sequence.IsDrawn codepoint := by
  intro codepoint mem
  obtain ⟨c, listed, selects⟩ := List.mem_filterMap.mp mem
  exact (isDrawn_iff (latin1?_eq_some_iff.mp selects)).mpr (plain c listed)

/-! ### Moving down -/

/-- The pen `lines` lines further down, in a text that is at least `width` wide. -/
def Pen.lower (pen : Pen) (lines width : Nat) : Pen where
  x := pen.x
  line := lines + pen.line
  width := max width pen.width

/-- The same glyph `lines` lines further down. -/
def Placement.lower (p : Placement) (lines : Nat) : Placement :=
  { p with line := lines + p.line }

namespace Sequence

variable {q : Sequence} {pen : Pen}

theorem advance_lower (q : Sequence) (pen : Pen) (lines width : Nat) (codepoint : UInt8) :
    q.advance (pen.lower lines width) codepoint =
      (q.advance pen codepoint).lower lines width := by
  unfold advance
  split
  · rfl
  · split
    · simp only [Pen.lower, Pen.moveTo, Nat.max_assoc]
    · simp only [Pen.lower, Pen.moveTo, Nat.max_assoc]

theorem finalPen_cons (q : Sequence) (pen : Pen) (codepoint : UInt8) (rest : List UInt8) :
    q.finalPen pen (codepoint :: rest) = q.finalPen (q.advance pen codepoint) rest := rfl

theorem finalPen_append (q : Sequence) (pen : Pen) (before after : List UInt8) :
    q.finalPen pen (before ++ after) = q.finalPen (q.finalPen pen before) after :=
  List.foldl_append

theorem placements_cons (q : Sequence) (pen : Pen) (codepoint : UInt8) (rest : List UInt8) :
    q.placements pen (codepoint :: rest) =
      if IsDrawn codepoint then
        { codepoint, x := pen.x, line := pen.line } :: q.placements (q.advance pen codepoint) rest
      else q.placements (q.advance pen codepoint) rest := rfl

theorem placements_append (q : Sequence) (pen : Pen) (before after : List UInt8) :
    q.placements pen (before ++ after) =
      q.placements pen before ++ q.placements (q.finalPen pen before) after := by
  induction before generalizing pen with
  | nil => rfl
  | cons codepoint rest ih =>
      rw [List.cons_append, placements_cons, placements_cons, finalPen_cons, ih]
      split
      · rfl
      · rfl

theorem finalPen_lower (q : Sequence) (pen : Pen) (lines width : Nat) (codepoints : List UInt8) :
    q.finalPen (pen.lower lines width) codepoints =
      (q.finalPen pen codepoints).lower lines width := by
  induction codepoints generalizing pen with
  | nil => rfl
  | cons codepoint rest ih => rw [finalPen_cons, advance_lower, ih, finalPen_cons]

theorem placements_lower (q : Sequence) (pen : Pen) (lines width : Nat)
    (codepoints : List UInt8) :
    q.placements (pen.lower lines width) codepoints =
      (q.placements pen codepoints).map (·.lower lines) := by
  induction codepoints generalizing pen with
  | nil => rfl
  | cons codepoint rest ih =>
      rw [placements_cons, placements_cons, advance_lower, ih]
      split
      · rfl
      · rfl

/-- A line feed starts the pen anew, below all lines so far. -/
theorem advance_lineFeed (q : Sequence) (pen : Pen) :
    q.advance pen lineFeed = Pen.start.lower (pen.line + 1) pen.width := by
  simp [advance, Pen.newLine, Pen.lower, Pen.start]

theorem finalPen_feed (q : Sequence) (pen : Pen) (before after : List UInt8) :
    q.finalPen pen (before ++ lineFeed :: after) =
      (q.finalPen .start after).lower ((q.finalPen pen before).line + 1)
        (q.finalPen pen before).width := by
  rw [finalPen_append, finalPen_cons, advance_lineFeed, finalPen_lower]

theorem placements_feed (q : Sequence) (pen : Pen) (before after : List UInt8) :
    q.placements pen (before ++ lineFeed :: after) =
      q.placements pen before ++
        (q.placements .start after).map (·.lower ((q.finalPen pen before).line + 1)) := by
  have undrawn : ¬ IsDrawn lineFeed := by decide
  rw [placements_append, placements_cons, if_neg undrawn, advance_lineFeed, placements_lower]

/-! ### Room for every glyph -/

theorem width_pos (q : Sequence) (codepoint : UInt8) : 0 < (q.glyph codepoint).width.toNat :=
  (q.glyph codepoint).width_pos

theorem tabWidth_pos (q : Sequence) : 0 < q.tabWidth :=
  Nat.mul_pos (q.width_pos spaceCodepoint) (by decide)

theorem lt_nextTabStop (q : Sequence) (x : Nat) : x < q.nextTabStop x := by
  have pos := q.tabWidth_pos
  have split := Nat.div_add_mod (x + q.tabWidth) q.tabWidth
  have rest := Nat.mod_lt (x + q.tabWidth) pos
  rw [Nat.mul_comm] at split
  unfold nextTabStop
  omega

theorem advance_of_isDrawn {codepoint : UInt8} (drawn : IsDrawn codepoint) :
    q.advance pen codepoint = pen.moveTo (pen.x + (q.glyph codepoint).width.toNat) := by
  unfold advance
  rw [if_neg drawn.1, if_neg drawn.2]

/-- Off a line feed the pen moves to the right of where it was. -/
theorem advance_of_ne (q : Sequence) (pen : Pen) {codepoint : UInt8}
    (same : codepoint ≠ lineFeed) :
    ∃ x, pen.x < x ∧ q.advance pen codepoint = pen.moveTo x := by
  unfold advance
  rw [if_neg same]
  split
  · exact ⟨_, q.lt_nextTabStop pen.x, rfl⟩
  · exact ⟨_, Nat.lt_add_of_pos_right (q.width_pos codepoint), rfl⟩

/-- The pen goes on line by line, and the text does not become narrower. -/
theorem advance_grows (q : Sequence) (pen : Pen) (codepoint : UInt8) :
    pen.width ≤ (q.advance pen codepoint).width ∧
      (pen.line < (q.advance pen codepoint).line ∨
        pen.line = (q.advance pen codepoint).line ∧ pen.x ≤ (q.advance pen codepoint).x) := by
  by_cases feed : codepoint = lineFeed
  · rw [feed, advance_lineFeed]
    exact ⟨Nat.le_max_left .., .inl (Nat.le_add_right ..)⟩
  · obtain ⟨x, right, moved⟩ := q.advance_of_ne pen feed
    rw [moved]
    exact ⟨Nat.le_max_left .., .inr ⟨rfl, Nat.le_of_lt right⟩⟩

theorem finalPen_grows (q : Sequence) (pen : Pen) (codepoints : List UInt8) :
    pen.width ≤ (q.finalPen pen codepoints).width ∧
      pen.line ≤ (q.finalPen pen codepoints).line := by
  induction codepoints generalizing pen with
  | nil => exact ⟨Nat.le_refl _, Nat.le_refl _⟩
  | cons codepoint rest ih =>
      have step := q.advance_grows pen codepoint
      have later := ih (q.advance pen codepoint)
      rw [finalPen_cons]
      omega

/-- Every placed glyph ends inside the width of the text and on one of its lines. -/
theorem inside_of_mem_placements {codepoints : List UInt8} {p : Placement}
    (placed : p ∈ q.placements pen codepoints) :
    p.x + (q.glyph p.codepoint).width.toNat ≤ (q.finalPen pen codepoints).width ∧
      p.line ≤ (q.finalPen pen codepoints).line := by
  induction codepoints generalizing pen with
  | nil => cases placed
  | cons codepoint rest ih =>
      rw [placements_cons] at placed
      rw [finalPen_cons]
      by_cases drawn : IsDrawn codepoint
      · rw [if_pos drawn] at placed
        rcases List.mem_cons.mp placed with rfl | later
        · have grown := q.finalPen_grows (q.advance pen codepoint) rest
          rw [advance_of_isDrawn drawn] at grown ⊢
          exact ⟨Nat.le_trans (Nat.le_max_right ..) grown.1, grown.2⟩
        · exact ih later
      · rw [if_neg drawn] at placed
        exact ih placed

/-- One glyph stands before another: on an earlier line, or wholly to its left. -/
def Before (q : Sequence) (p p' : Placement) : Prop :=
  p.line < p'.line ∨ p.line = p'.line ∧ p.x + (q.glyph p.codepoint).width.toNat ≤ p'.x

theorem after_of_mem_placements {codepoints : List UInt8} {p : Placement}
    (placed : p ∈ q.placements pen codepoints) :
    pen.line < p.line ∨ pen.line = p.line ∧ pen.x ≤ p.x := by
  induction codepoints generalizing pen with
  | nil => cases placed
  | cons codepoint rest ih =>
      have step := q.advance_grows pen codepoint
      rw [placements_cons] at placed
      by_cases drawn : IsDrawn codepoint
      · rw [if_pos drawn] at placed
        rcases List.mem_cons.mp placed with rfl | later
        · exact .inr ⟨rfl, Nat.le_refl _⟩
        · have after := ih later
          omega
      · rw [if_neg drawn] at placed
        have after := ih placed
        omega

theorem placements_pairwise (q : Sequence) (pen : Pen) (codepoints : List UInt8) :
    (q.placements pen codepoints).Pairwise q.Before := by
  induction codepoints generalizing pen with
  | nil => exact .nil
  | cons codepoint rest ih =>
      rw [placements_cons]
      split
      · rename_i drawn
        refine .cons ?_ (ih _)
        intro p later
        have after := after_of_mem_placements later
        rw [advance_of_isDrawn drawn] at after
        exact after
      · exact ih _

theorem codepoints_placements (q : Sequence) (pen : Pen) (codepoints : List UInt8) :
    (q.placements pen codepoints).map (·.codepoint) =
      codepoints.filter fun c => decide (IsDrawn c) := by
  induction codepoints generalizing pen with
  | nil => rfl
  | cons codepoint rest ih =>
      rw [placements_cons, List.filter_cons]
      by_cases drawn : IsDrawn codepoint
      · simp [drawn, ih]
      · simp [drawn, ih]

end Sequence

/-! ### Drawing -/

namespace TextCanvas

/-- The canvas with pixels set one after the other. -/
def setAll (c : TextCanvas) (positions : List (Nat × Nat)) : TextCanvas :=
  positions.foldl (fun c p => c.set p.1 p.2) c

theorem size_setAll (c : TextCanvas) (positions : List (Nat × Nat)) :
    (c.setAll positions).width = c.width ∧ (c.setAll positions).height = c.height := by
  induction positions generalizing c with
  | nil => exact ⟨rfl, rfl⟩
  | cons p rest ih =>
      have size := ih (c.set p.1 p.2)
      rw [width_set, height_set] at size
      exact size

/-- Pixels that lie on the canvas are set, and no others. -/
theorem pixel_setAll {c : TextCanvas} {positions : List (Nat × Nat)}
    (inside : ∀ p ∈ positions, c.InBounds p.1 p.2) (x y : Nat) :
    (c.setAll positions).pixel x y = (decide ((x, y) ∈ positions) || c.pixel x y) := by
  induction positions generalizing c with
  | nil => simp [setAll]
  | cons p rest ih =>
      have first := inside p List.mem_cons_self
      have later : ∀ p' ∈ rest, (c.set p.1 p.2).InBounds p'.1 p'.2 := by
        intro p' mem
        unfold Grid.InBounds
        rw [width_set, height_set]
        exact inside p' (List.mem_cons_of_mem p mem)
      change ((c.set p.1 p.2).setAll rest).pixel x y = _
      rw [ih later, pixel_set first]
      have same : (x, y) = p ↔ x = p.1 ∧ y = p.2 := Prod.ext_iff
      simp only [List.mem_cons, same, Bool.decide_or, ← Bool.or_assoc]
      rw [Bool.or_comm (decide ((x, y) ∈ rest))]

theorem drawGlyph_eq_setAll (c : TextCanvas) (g : Glyph) (left top : Nat) :
    c.drawGlyph g left top = c.setAll ((inkOf g).map fun p => (left + p.1, top + p.2)) := by
  rw [setAll, List.foldl_map]
  rfl

end TextCanvas

namespace Sequence

variable {q : Sequence} {text : List Char}

/-- The positions that the ink of a placed glyph takes on a canvas. -/
def inkAt (q : Sequence) (p : Placement) : List (Nat × Nat) :=
  (TextCanvas.inkOf (q.glyph p.codepoint)).map fun ink =>
    (p.x + ink.1, q.lineTop p.line + ink.2)

theorem mem_inkAt {p : Placement} {x y : Nat} :
    (x, y) ∈ q.inkAt p ↔ p.x ≤ x ∧ q.lineTop p.line ≤ y ∧
      (q.glyph p.codepoint).pixel (x - p.x) (y - q.lineTop p.line) = true := by
  simp only [inkAt, List.mem_map, Prod.exists, TextCanvas.mem_inkOf, Prod.mk.injEq]
  constructor
  · rintro ⟨column, row, set, rfl, rfl⟩
    rw [Nat.add_sub_cancel_left, Nat.add_sub_cancel_left]
    exact ⟨Nat.le_add_right .., Nat.le_add_right .., set⟩
  · rintro ⟨left, top, set⟩
    exact ⟨_, _, set, Nat.add_sub_cancel' left, Nat.add_sub_cancel' top⟩

/-- The positions that the ink of a text takes, glyph after glyph. -/
def textInk (q : Sequence) (text : List Char) : List (Nat × Nat) :=
  (q.placements .start (latin1 text)).flatMap q.inkAt

theorem renderText_eq_setAll (q : Sequence) (text : List Char) :
    q.renderText text =
      (TextCanvas.blank (q.finalPen .start (latin1 text)).width
        (q.textHeight (q.finalPen .start (latin1 text)).line)).setAll (q.textInk text) := by
  rw [TextCanvas.setAll, textInk, List.foldl_flatMap]
  simp only [renderText, TextCanvas.drawGlyph_eq_setAll]
  rfl

theorem width_renderText (q : Sequence) (text : List Char) :
    (q.renderText text).width = (q.finalPen .start (latin1 text)).width := by
  rw [renderText_eq_setAll]
  exact (TextCanvas.size_setAll ..).1

theorem height_renderText (q : Sequence) (text : List Char) :
    (q.renderText text).height = q.textHeight (q.finalPen .start (latin1 text)).line := by
  rw [renderText_eq_setAll]
  exact (TextCanvas.size_setAll ..).2

/-- The rows of a line end inside a text whose last line is not above it. -/
theorem lineTop_add_le (q : Sequence) {line last : Nat} (le : line ≤ last) :
    q.lineTop line + q.height.toNat ≤ q.textHeight last := by
  have rows := Nat.mul_le_mul_right (q.height.toNat + lineGap) le
  rw [Nat.mul_add last] at rows
  rw [lineTop, textHeight, Nat.add_mul, Nat.one_mul]
  omega

/-- A line ends above the lines below it. -/
theorem lineTop_add_le_lineTop (q : Sequence) {line below : Nat} (lt : line < below) :
    q.lineTop line + q.height.toNat ≤ q.lineTop below := by
  have rows := Nat.mul_le_mul_right (q.height.toNat + lineGap) (Nat.succ_le_of_lt lt)
  rw [Nat.succ_mul] at rows
  rw [lineTop, lineTop]
  omega

/-- No ink lies beyond the canvas. -/
theorem inBounds_of_mem_textInk {x y : Nat} (inked : (x, y) ∈ q.textInk text) :
    x < (q.renderText text).width ∧ y < (q.renderText text).height := by
  obtain ⟨p, placed, inked⟩ := List.mem_flatMap.mp inked
  obtain ⟨left, top, set⟩ := mem_inkAt.mp inked
  have inside := Glyph.inBounds_of_pixel set
  have room := inside_of_mem_placements placed
  have rows := q.lineTop_add_le room.2
  have height : (q.glyph p.codepoint).height = q.height := q.glyph_height p.codepoint
  rw [width_renderText, height_renderText]
  rw [Glyph.InBounds, height] at inside
  omega

/-- A pixel of the canvas is set where the text has ink. -/
theorem pixel_renderText_iff {x y : Nat} :
    (q.renderText text).pixel x y = true ↔ (x, y) ∈ q.textInk text := by
  have inside : ∀ p ∈ q.textInk text, (TextCanvas.blank (q.finalPen .start (latin1 text)).width
      (q.textHeight (q.finalPen .start (latin1 text)).line)).InBounds p.1 p.2 := by
    intro p inked
    have bounds := inBounds_of_mem_textInk inked
    rw [width_renderText, height_renderText] at bounds
    exact bounds
  have clear : (TextCanvas.blank (q.finalPen .start (latin1 text)).width
      (q.textHeight (q.finalPen .start (latin1 text)).line)).pixel x y = false :=
    Grid.getD_filled ..
  rw [renderText_eq_setAll, TextCanvas.pixel_setAll inside, clear, Bool.or_false,
    decide_eq_true_iff]

end Sequence

end BitmapFont
