import BitmapFont.Proofs.Text.Joining
import BitmapFont.Proofs.Text.Layout

/-!
Measuring and rendering.

Measuring adds up over the characters of a text; rendering leads a pen through it and
keeps the rightmost column that the pen has reached. Both look at the same part of the
text and at the same part of the sequence. Main facts:

* `Sequence.measureText_eq`: what measuring adds up;
* `Sequence.width_renderText_plain`: on one line without tabs the rightmost column is
  the last, where the glyphs end side by side;
* `Sequence.renderText_congr`, `Sequence.measureText_congr`: of a sequence only the
  glyphs and the height show;
* `Sequence.measureText_agrees`: the width of a text by measuring and by rendering.
-/

namespace BitmapFont

theorem isSome_latin1?_iff {c : Char} : (latin1? c).isSome ↔ c.toNat ≤ 0xFF := by
  unfold latin1?
  split
  · rename_i small
    exact iff_of_true rfl (Nat.le_of_lt_succ small)
  · rename_i large
    exact iff_of_false Bool.false_ne_true fun small => large (Nat.lt_succ_of_le small)

theorem length_latin1 (text : List Char) :
    (latin1 text).length = text.countP fun c => c.toNat ≤ 0xFF := by
  rw [latin1, List.length_filterMap_eq_countP]
  refine List.countP_congr fun c _ => ?_
  rw [isSome_latin1?_iff, decide_eq_true_eq]

namespace Sequence

/-! ### What shows of a sequence -/

section
variable {a b : Sequence}

theorem advance_congr (glyphs : ∀ c, a.glyph c = b.glyph c) : a.advance = b.advance := by
  funext pen codepoint
  simp only [advance, nextTabStop, tabWidth, glyphs]

theorem placements_congr (glyphs : ∀ c, a.glyph c = b.glyph c) (pen : Pen)
    (codepoints : List UInt8) : a.placements pen codepoints = b.placements pen codepoints := by
  induction codepoints generalizing pen with
  | nil => rfl
  | cons codepoint rest ih => rw [placements_cons, placements_cons, advance_congr glyphs, ih]

/-- Sequences of one height with the same glyphs render every text alike. -/
theorem renderText_congr (height : a.height = b.height) (glyphs : ∀ c, a.glyph c = b.glyph c)
    (text : List Char) : a.renderText text = b.renderText text := by
  simp only [renderText, finalPen, lineTop, textHeight, advance_congr glyphs,
    placements_congr glyphs, glyphs, height]

theorem measureText_congr (glyphs : ∀ c, a.glyph c = b.glyph c) (text : List Char) :
    a.measureText text = b.measureText text := by
  simp only [measureText, glyphs]

end

/-! ### Widths of texts -/

variable {q : Sequence}

theorem measureText_eq_sum (q : Sequence) (text : List Char) :
    q.measureText text = ((latin1 text).map fun c => (q.glyph c).width.toNat + 1).sum := by
  rw [measureText, List.sum_eq_foldl, List.foldl_map]

/-- Measuring adds one column to every glyph. -/
theorem measureText_eq (q : Sequence) (text : List Char) :
    q.measureText text = q.breadth (latin1 text) + (latin1 text).length := by
  rw [measureText_eq_sum, List.sum_map_add, List.map_const', List.sum_replicate_nat, Nat.mul_one,
    breadth]

theorem measureText_append (q : Sequence) (a b : List Char) :
    q.measureText (a ++ b) = q.measureText a + q.measureText b := by
  simp only [measureText_eq_sum, latin1_append, List.map_append, List.sum_append]

theorem width_renderText_plain {text : List Char} (plain : ∀ c ∈ text, c ≠ '\n' ∧ c ≠ '\t') :
    (q.renderText text).width = q.breadth (latin1 text) := by
  have final := q.finalPen_plain 0 (isDrawn_of_mem_latin1 plain)
  rw [width_renderText]
  exact (congrArg Pen.width final).trans (Nat.zero_add _)

/-- On a text of one line without tabs, measuring gives the width of the canvas and one
column more for every character that has a codepoint. Characters beyond U+00FF make no
difference to either, wherever they stand, and measuring adds up over parts of a text. -/
theorem measureText_agrees (q : Sequence) :
    (∀ text, (∀ c ∈ text, c ≠ '\n' ∧ c ≠ '\t') →
      q.measureText text = (q.renderText text).width + text.countP fun c => c.toNat ≤ 0xFF) ∧
    (∀ text, q.measureText (text.filter fun c => c.toNat ≤ 0xFF) = q.measureText text ∧
      q.renderText (text.filter fun c => c.toNat ≤ 0xFF) = q.renderText text) ∧
    ∀ a b, q.measureText (a ++ b) = q.measureText a + q.measureText b := by
  refine ⟨?_, ?_, q.measureText_append⟩
  · intro text plain
    rw [measureText_eq, width_renderText_plain plain, length_latin1]
  · intro text
    simp only [measureText, renderText, latin1_filter, and_self]

theorem measureText_agrees_barred :
    (∀ c ∈ ['I', '€', '-'], c ≠ '\n' ∧ c ≠ '\t') ∧
      barred.measureText ['I', '€', '-'] = (barred.renderText ['I', '€', '-']).width + 2 ∧
      barred.measureText ['I', '€', '-'] = 5 := by
  have plain : ∀ c ∈ ['I', '€', '-'], c ≠ '\n' ∧ c ≠ '\t' := by simp
  have counted : ['I', '€', '-'].countP (fun c => c.toNat ≤ 0xFF) = 2 := by decide
  refine ⟨plain, ?_, by decide +kernel⟩
  rw [barred.measureText_agrees.1 _ plain, counted]

end Sequence

end BitmapFont
