import BitmapFont.Sequence

/-!
Storing several glyphs.

Glyphs that fit a sequence are stored one after the other, each under its own
codepoint. Decoding a stream and replacing glyphs both come to that. Main facts:

* `Sequence.sameMetrics_foldl_insert`: nothing but glyphs changes;
* `Sequence.glyph_foldl_insert`: the last glyph for a codepoint decides.
-/

namespace BitmapFont

/-- Two sequences that differ in their glyphs only. -/
structure Sequence.SameMetrics (s t : Sequence) : Prop where
  height : t.height = s.height
  baseline : t.baseline = s.baseline
  pointSize : t.pointSize = s.pointSize

namespace Sequence

theorem SameMetrics.trans {r s t : Sequence} (first : r.SameMetrics s) (second : s.SameMetrics t) :
    r.SameMetrics t where
  height := second.height.trans first.height
  baseline := second.baseline.trans first.baseline
  pointSize := second.pointSize.trans first.pointSize

theorem sameMetrics_insert (s : Sequence) (g : Glyph) : s.SameMetrics (s.insert g) := by
  unfold insert
  split
  · exact ⟨rfl, rfl, rfl⟩
  · exact ⟨rfl, rfl, rfl⟩

theorem sameMetrics_foldl_insert (glyphs : List Glyph) (s : Sequence) :
    s.SameMetrics (glyphs.foldl insert s) := by
  induction glyphs generalizing s with
  | nil => exact ⟨rfl, rfl, rfl⟩
  | cons g rest ih => exact (s.sameMetrics_insert g).trans (ih (s.insert g))

theorem glyph_insert {s : Sequence} {g : Glyph} (fits : g.height = s.height) (c : UInt8) :
    (s.insert g).glyph c = if g.codepoint = c then g else s.glyph c := by
  unfold insert
  rw [dif_pos fits, glyph_withGlyph, Glyph.withCodepoint_self]
  by_cases same : c = g.codepoint
  · rw [if_pos same, if_pos same.symm]
  · rw [if_neg same, if_neg (Ne.symm same)]

/-- Of several glyphs for one codepoint the last decides, and a codepoint without one
keeps its glyph. -/
theorem glyph_foldl_insert {glyphs : List Glyph} {s : Sequence}
    (fits : ∀ g ∈ glyphs, g.height = s.height) (c : UInt8) :
    (glyphs.foldl insert s).glyph c =
      ((glyphs.filter fun g => g.codepoint = c).getLast?).getD (s.glyph c) := by
  induction glyphs generalizing s with
  | nil => rfl
  | cons g rest ih =>
      have fitsFirst := fits g List.mem_cons_self
      have fitsRest : ∀ other ∈ rest, other.height = (s.insert g).height := by
        intro other mem
        rw [(s.sameMetrics_insert g).height]
        exact fits other (List.mem_cons_of_mem g mem)
      rw [List.foldl_cons, ih fitsRest, glyph_insert fitsFirst, List.filter_cons]
      by_cases same : g.codepoint = c
      · simp only [same, decide_true, if_true, List.getLast?_cons, Option.getD_some]
      · simp only [same, decide_false, if_false, Bool.false_eq_true]

end Sequence

end BitmapFont
