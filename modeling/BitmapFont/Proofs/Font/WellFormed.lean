import BitmapFont.Font.Basic

/-!
Well-formed fonts.

What the types of glyphs, sequences and fonts promise, spelled out in numbers and
bits: the codec, the history and text rendering rely on it.
-/

namespace BitmapFont

/-- A glyph as a sequence of `height` rows keeps it under `codepoint`. -/
structure Glyph.KeptAs (g : Glyph) (codepoint : Nat) (height : UInt8) : Prop where
  codepoint_eq : g.codepoint.toNat = codepoint
  height_eq : g.height = height
  width_pos : 1 ≤ g.width.toNat
  size_data : g.data.size = (g.width.toNat + 7) / 8 * g.height.toNat
  padding_clear : ∀ x y, g.width.toNat ≤ x → x < 8 * ((g.width.toNat + 7) / 8) →
    y < g.height.toNat →
    (g.data.getD (y * ((g.width.toNat + 7) / 8) + x / 8) 0).toNat.testBit (7 - x % 8) = false

structure Sequence.WellFormed (q : Sequence) : Prop where
  height_pos : 1 ≤ q.height.toNat
  baseline_lt : q.baseline.toNat < q.height.toNat
  count : q.glyphs.toList.length = 256
  kept : ∀ (i : Nat) (inside : i < 256), q.glyphs[i].KeptAs i q.height

structure Font.WellFormed (f : Font) : Prop where
  nonempty : 1 ≤ f.sequences.length
  name_ascii : ∀ c ∈ f.name.chars, 0 < c.toNat ∧ c.toNat < 128
  name_length : f.name.chars.length ≤ 28
  sequences : ∀ q ∈ f.sequences, q.WellFormed

theorem Sequence.wellFormed (q : Sequence) : q.WellFormed where
  height_pos := q.height_pos
  baseline_lt := q.baseline_lt
  count := Vector.length_toList
  kept := by
    intro i inside
    refine ⟨q.keyed i inside, q.rows_eq i inside, q.glyphs[i].width_pos, q.glyphs[i].size_data, ?_⟩
    intro x y beyond stored row
    rw [← Packing.bit_eq_testBit _ (Nat.mod_lt x (by decide))]
    exact q.glyphs[i].padding_clear x y beyond stored row

theorem Font.wellFormed (f : Font) : f.WellFormed where
  nonempty := f.sequenceCount_pos
  name_ascii := f.name.storable
  name_length := f.name.length_le
  sequences := fun q _ => q.wellFormed

end BitmapFont
