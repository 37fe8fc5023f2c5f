import BitmapFont.Proofs.Glyph.Representation
import BitmapFont.Proofs.Text.Drawing
import Mathlib.Data.Set.Prod
import Mathlib.Order.Bounds.Basic

/-!
Where the characters of a text stand.

A text consists of lines, and setting the characters of a line one after the other
leads from one column to the next. This says which cell of a canvas belongs to which
character, without a pen that runs over the whole text. Main facts:

* `Sequence.leads_iff`: the pen is in the column that the characters before it lead to;
* `Sequence.mem_placements_iff`: a glyph is placed for every drawn character of every
  line, and no other;
* `Sequence.renderText_laidOut`: the cells of the drawn characters share no pixel and
  lie on the canvas, and the canvas shows the glyphs in them and nothing else.
-/

namespace BitmapFont

/-- The lines of a text, without the characters that select no codepoint. -/
def linesOf (text : List Char) : List (List Char) :=
  (text.filter fun c => c.toNat ≤ 0xFF).splitOn '\n'

/-- The characters of a text that are drawn: those with a codepoint, except line feeds and
tabs. -/
def drawnOf (text : List Char) : List Char :=
  text.filter fun c => c.toNat ≤ 0xFF ∧ c ≠ '\n' ∧ c ≠ '\t'

/-- The positions of the set pixels of a canvas. -/
def TextCanvas.setPixels (c : TextCanvas) : Finset (ℕ × ℕ) :=
  (Finset.range c.width ×ˢ Finset.range c.height).filter fun p => c.pixel p.1 p.2 = true

namespace Sequence

/-- The glyph under the number of a character. -/
def glyphOf (q : Sequence) (c : Char) : Glyph :=
  q.glyph (UInt8.ofNat c.toNat)

/-- A character leads from one column to another: past its glyph, or to the next
multiple of four spaces if it is a tab. -/
def Moves (q : Sequence) (c : Char) (x x' : ℕ) : Prop :=
  if c = '\t' then IsLeast {stop | x < stop ∧ 4 * (q.glyphOf ' ').width.toNat ∣ stop} x'
  else x' = x + (q.glyphOf c).width.toNat

/-- Setting characters one after the other leads from one column to another. -/
inductive Leads (q : Sequence) : ℕ → List Char → ℕ → Prop
  | nil (x : ℕ) : Leads q x [] x
  | cons {c : Char} {chars : List Char} {x x' x'' : ℕ} :
      q.Moves c x x' → Leads q x' chars x'' → Leads q x (c :: chars) x''

/-- Character `k` of line `l` is `c`, and its glyph is drawn from column `x` on. -/
def DrawnAt (q : Sequence) (lines : List (List Char)) (l k : ℕ) (c : Char) (x : ℕ) : Prop :=
  ∃ chars, lines[l]? = some chars ∧ chars[k]? = some c ∧ c ≠ '\t' ∧ q.Leads 0 (chars.take k) x

/-- The pixels that belong to a character drawn on line `l` from column `x` on. -/
def cell (q : Sequence) (c : Char) (x l : ℕ) : Set (ℕ × ℕ) :=
  Set.Ico x (x + (q.glyphOf c).width.toNat) ×ˢ
    Set.Ico (l * (q.height.toNat + 2)) (l * (q.height.toNat + 2) + q.height.toNat)

/-! ### The pen on a line -/

section
variable {q : Sequence} {c : Char} {chars : List Char} {pen : Pen} {x y z : ℕ}

/-- A list of characters that stay on one line, each with a codepoint. -/
def IsLine (chars : List Char) : Prop :=
  ∀ c ∈ chars, c.toNat ≤ 0xFF ∧ c ≠ '\n'

theorem toNat_ofNat_toNat (small : c.toNat ≤ 0xFF) : (UInt8.ofNat c.toNat).toNat = c.toNat := by
  rw [UInt8.toNat_ofNat']
  omega

theorem latin1_cons (small : c.toNat ≤ 0xFF) (chars : List Char) :
    latin1 (c :: chars) = UInt8.ofNat c.toNat :: latin1 chars :=
  List.filterMap_cons_some (latin1?_eq_some_iff.mpr (toNat_ofNat_toNat small))

theorem isLeast_nextTabStop (q : Sequence) (x : ℕ) :
    IsLeast {stop | x < stop ∧ 4 * (q.glyphOf ' ').width.toNat ∣ stop} (q.nextTabStop x) := by
  have spaces : 4 * (q.glyphOf ' ').width.toNat = q.tabWidth := Nat.mul_comm ..
  rw [spaces]
  refine ⟨⟨q.lt_nextTabStop x, Nat.dvd_mul_left ..⟩, ?_⟩
  rintro stop ⟨after, m, rfl⟩
  have below : x / q.tabWidth < m := Nat.div_lt_of_lt_mul after
  calc q.nextTabStop x = (x / q.tabWidth + 1) * q.tabWidth := by
        rw [nextTabStop, Nat.add_div_right x q.tabWidth_pos]
    _ ≤ m * q.tabWidth := Nat.mul_le_mul_right _ below
    _ = q.tabWidth * m := Nat.mul_comm ..

/-- Off a line feed the pen moves on its line, to where the character leads. -/
theorem advance_of_isLine (q : Sequence) (pen : Pen) (small : c.toNat ≤ 0xFF)
    (stays : c ≠ '\n') :
    ∃ x, q.advance pen (UInt8.ofNat c.toNat) = pen.moveTo x ∧
      ∀ y, q.Moves c pen.x y ↔ y = x := by
  have selected := toNat_ofNat_toNat small
  unfold advance Moves
  simp only [eq_lineFeed_iff selected, eq_tabulator_iff selected, if_neg stays]
  split
  · refine ⟨_, rfl, fun y => ⟨fun least => least.unique (q.isLeast_nextTabStop pen.x), ?_⟩⟩
    rintro rfl
    exact q.isLeast_nextTabStop pen.x
  · exact ⟨_, rfl, fun y => Iff.rfl⟩

theorem leads_nil_iff : q.Leads x [] z ↔ x = z := by
  constructor
  · rintro ⟨⟩
    rfl
  · rintro rfl
    exact .nil x

theorem leads_cons_iff : q.Leads x (c :: chars) z ↔ ∃ y, q.Moves c x y ∧ q.Leads y chars z := by
  constructor
  · rintro (_ | ⟨move, rest⟩)
    exact ⟨_, move, rest⟩
  · rintro ⟨y, move, rest⟩
    exact .cons move rest

theorem leads_append_iff {first second : List Char} :
    q.Leads x (first ++ second) z ↔ ∃ y, q.Leads x first y ∧ q.Leads y second z := by
  induction first generalizing x with
  | nil => simp [leads_nil_iff]
  | cons c first ih =>
      simp only [List.cons_append, leads_cons_iff, ih]
      constructor
      · rintro ⟨y', move, y, rest, later⟩
        exact ⟨y, ⟨y', move, rest⟩, later⟩
      · rintro ⟨y, ⟨y', move, rest⟩, later⟩
        exact ⟨y', move, y, rest, later⟩

theorem Leads.split (leads : q.Leads x chars z) (k : ℕ) :
    ∃ y, q.Leads x (chars.take k) y ∧ q.Leads y (chars.drop k) z := by
  rwa [← leads_append_iff, List.take_append_drop]

/-- The pen is in the column that the characters of its line lead to. -/
theorem leads_iff (pen : Pen) (isLine : IsLine chars) :
    q.Leads pen.x chars x ↔ x = (q.finalPen pen (latin1 chars)).x := by
  induction chars generalizing pen with
  | nil => exact leads_nil_iff.trans eq_comm
  | cons c chars ih =>
      obtain ⟨⟨small, stays⟩, isLine⟩ := List.forall_mem_cons.mp isLine
      obtain ⟨next, moved, moves⟩ := q.advance_of_isLine pen small stays
      rw [latin1_cons small, finalPen_cons, moved, ← ih _ isLine, leads_cons_iff]
      simp only [moves, exists_eq_left]
      rfl

theorem Leads.unique (isLine : IsLine chars) (first : q.Leads x chars y)
    (second : q.Leads x chars z) : y = z := by
  have start : ({ x, line := 0, width := 0 } : Pen).x = x := rfl
  rw [← start, leads_iff _ isLine] at first second
  rw [first, second]

theorem Moves.lt (moves : q.Moves c x y) : x < y := by
  unfold Moves at moves
  split at moves
  · exact moves.1.1
  · rw [moves]
    exact Nat.lt_add_of_pos_right (q.width_pos _)

theorem Leads.le (leads : q.Leads x chars y) : x ≤ y := by
  induction leads with
  | nil x => exact Nat.le_refl x
  | cons move _ ih => exact Nat.le_trans (Nat.le_of_lt move.lt) ih

theorem IsLine.take (isLine : IsLine chars) (k : ℕ) : IsLine (chars.take k) :=
  fun c mem => isLine c (List.mem_of_mem_take mem)

/-- Past a drawn character of a line every column lies beyond its glyph. -/
theorem le_of_leads_take {k k' : ℕ} (isLine : IsLine chars) (character : chars[k]? = some c)
    (drawn : c ≠ '\t') (later : k < k') (first : q.Leads 0 (chars.take k) x)
    (second : q.Leads 0 (chars.take k') y) : x + (q.glyphOf c).width.toNat ≤ y := by
  obtain ⟨d, rfl⟩ := Nat.exists_eq_add_of_le (Nat.succ_le_of_lt later)
  rw [List.take_add, List.take_add_one, character] at second
  obtain ⟨z, upTo, rest⟩ := leads_append_iff.mp second
  obtain ⟨x', before, move⟩ := leads_append_iff.mp upTo
  obtain rfl := first.unique (isLine.take k) before
  obtain ⟨z', moves, stop⟩ := leads_cons_iff.mp move
  rw [leads_nil_iff] at stop
  subst stop
  unfold Moves at moves
  rw [if_neg drawn] at moves
  exact moves ▸ rest.le

theorem finalPen_of_isLine (isLine : IsLine chars) (flush : pen.width = pen.x) :
    (q.finalPen pen (latin1 chars)).line = pen.line ∧
      (q.finalPen pen (latin1 chars)).width = (q.finalPen pen (latin1 chars)).x := by
  induction chars generalizing pen with
  | nil => exact ⟨rfl, flush⟩
  | cons c chars ih =>
      obtain ⟨⟨small, stays⟩, isLine⟩ := List.forall_mem_cons.mp isLine
      obtain ⟨next, moved, moves⟩ := q.advance_of_isLine pen small stays
      have right := ((moves next).mpr rfl).lt
      have flush : (pen.moveTo next).width = (pen.moveTo next).x := by
        change max pen.width next = next
        omega
      rw [latin1_cons small, finalPen_cons, moved]
      exact ih isLine flush

/-- The last column of a line is the greatest that its characters lead to. -/
theorem isGreatest_width_of_isLine (isLine : IsLine chars) :
    IsGreatest {x | ∃ k, q.Leads 0 (chars.take k) x} (q.finalPen .start (latin1 chars)).width := by
  rw [(finalPen_of_isLine isLine rfl).2]
  have whole : q.Leads 0 chars (q.finalPen .start (latin1 chars)).x :=
    (leads_iff .start isLine).mpr rfl
  constructor
  · refine ⟨chars.length, ?_⟩
    rwa [List.take_length]
  · rintro x ⟨k, leads⟩
    obtain ⟨y, first, rest⟩ := whole.split k
    obtain rfl := leads.unique (isLine.take k) first
    exact rest.le

/-- On a line a glyph is placed for every character that is drawn. -/
theorem mem_placements_of_isLine (isLine : IsLine chars) {p : Placement} :
    p ∈ q.placements pen (latin1 chars) ↔ p.line = pen.line ∧ ∃ k c, chars[k]? = some c ∧
      c ≠ '\t' ∧ q.Leads pen.x (chars.take k) p.x ∧ p.codepoint = UInt8.ofNat c.toNat := by
  induction chars generalizing pen with
  | nil => simp [latin1, placements]
  | cons c chars ih =>
      obtain ⟨⟨small, stays⟩, isLine⟩ := List.forall_mem_cons.mp isLine
      obtain ⟨next, moved, moves⟩ := q.advance_of_isLine pen small stays
      have isDrawn : IsDrawn (UInt8.ofNat c.toNat) ↔ c ≠ '\t' := by
        rw [isDrawn_iff (toNat_ofNat_toNat small), and_iff_right stays]
      rw [latin1_cons small, placements_cons, moved, ← Nat.or_exists_add_one]
      simp only [List.getElem?_cons_zero, List.getElem?_cons_succ, List.take_zero,
        List.take_succ_cons, leads_cons_iff, leads_nil_iff, moves, exists_eq_left]
      by_cases drawn : c ≠ '\t'
      · rw [if_pos (isDrawn.mpr drawn), List.mem_cons, ih isLine]
        constructor
        · rintro (rfl | ⟨same, rest⟩)
          · exact ⟨rfl, .inl ⟨c, rfl, drawn, rfl, rfl⟩⟩
          · exact ⟨same, .inr rest⟩
        · rintro ⟨same, ⟨_, ⟨⟩, -, column, codepoint⟩ | rest⟩
          · rw [column, ← same, ← codepoint]
            exact .inl rfl
          · exact .inr ⟨same, rest⟩
      · rw [if_neg (mt isDrawn.mp drawn), ih isLine]
        refine and_congr_right fun _ => (or_iff_right ?_).symm
        rintro ⟨_, ⟨⟩, tab, -⟩
        exact drawn tab

end

/-! ### The lines of a text -/

/-- Codepoints that make up lines of characters, with a line feed after each but the last. -/
inductive Lined : List UInt8 → List (List Char) → Prop
  | last {chars : List Char} : IsLine chars → Lined (latin1 chars) [chars]
  | feed {chars : List Char} {codepoints : List UInt8} {lines : List (List Char)} :
      IsLine chars → Lined codepoints lines →
        Lined (latin1 chars ++ lineFeed :: codepoints) (chars :: lines)

theorem lined_splitOn (text : List Char) (small : ∀ c ∈ text, c.toNat ≤ 0xFF) :
    Lined (latin1 text) (text.splitOn '\n') := by
  by_cases feed : '\n' ∈ text
  · obtain ⟨chars, rest, rfl, clean⟩ := List.eq_append_cons_of_mem feed
    obtain ⟨smallLine, smallRest⟩ := List.forall_mem_append.mp small
    have isLine : IsLine chars := fun c mem => ⟨smallLine c mem, fun same => clean (same ▸ mem)⟩
    rw [List.splitOn_append_cons_self_of_not_mem clean, latin1_append, latin1_newline]
    exact .feed isLine (lined_splitOn rest (List.forall_mem_cons.mp smallRest).2)
  · have isLine : IsLine text := fun c mem => ⟨small c mem, fun same => feed (same ▸ mem)⟩
    rw [List.splitOn_eq_singleton feed]
    exact .last isLine
termination_by text.length

theorem latin1_filter (text : List Char) :
    latin1 (text.filter fun c => c.toNat ≤ 0xFF) = latin1 text := by
  rw [latin1, List.filterMap_filter]
  refine List.filterMap_congr fun c _ => ?_
  unfold latin1?
  simp only [decide_eq_true_eq]
  split
  · rfl
  · rw [if_neg (by omega)]

theorem lined (text : List Char) : Lined (latin1 text) (linesOf text) := by
  rw [← latin1_filter]
  refine lined_splitOn _ fun c mem => ?_
  exact of_decide_eq_true (List.mem_filter.mp mem).2

section
variable {q : Sequence} {codepoints : List UInt8} {lines : List (List Char)}

theorem Lined.isLine (lined : Lined codepoints lines) : ∀ chars ∈ lines, IsLine chars := by
  induction lined with
  | last isLine => exact List.forall_mem_singleton.mpr isLine
  | feed isLine _ ih => exact List.forall_mem_cons.mpr ⟨isLine, ih⟩

theorem length_of_lined (lined : Lined codepoints lines) :
    lines.length = (q.finalPen .start codepoints).line + 1 := by
  induction lined with
  | last isLine => rw [(finalPen_of_isLine isLine rfl).1]; rfl
  | feed isLine _ ih =>
      rw [finalPen_feed, (finalPen_of_isLine isLine rfl).1, List.length_cons, ih]
      simp only [Pen.lower, Pen.start]
      omega

theorem isGreatest_width_of_lined (lined : Lined codepoints lines) :
    IsGreatest {x | ∃ chars ∈ lines, ∃ k, q.Leads 0 (chars.take k) x}
      (q.finalPen .start codepoints).width := by
  induction lined with
  | last isLine =>
      simp only [List.mem_singleton, exists_eq_left]
      exact isGreatest_width_of_isLine isLine
  | feed isLine _ ih =>
      rw [finalPen_feed]
      simp only [List.exists_mem_cons_iff]
      exact (isGreatest_width_of_isLine isLine).union ih

/-- Moved down by one line, glyphs stand on every line but the first. -/
theorem mem_map_lower_iff {placements : List Placement} {p : Placement} :
    p ∈ placements.map (·.lower 1) ↔ 0 < p.line ∧ { p with line := p.line - 1 } ∈ placements := by
  rw [List.mem_map]
  constructor
  · rintro ⟨p, placed, rfl⟩
    simp only [Placement.lower, Nat.add_sub_cancel_left]
    exact ⟨by omega, placed⟩
  · rintro ⟨below, placed⟩
    refine ⟨_, placed, ?_⟩
    simp only [Placement.lower, Nat.add_sub_cancel' below]

/-- A glyph is placed for every character that is drawn, and no other. -/
theorem mem_placements_iff (lined : Lined codepoints lines) {p : Placement} :
    p ∈ q.placements .start codepoints ↔ ∃ k c, q.DrawnAt lines p.line k c p.x ∧
      p.codepoint = UInt8.ofNat c.toNat := by
  induction lined generalizing p with
  | @last chars isLine =>
      rw [mem_placements_of_isLine isLine]
      constructor
      · rintro ⟨same, k, c, character, drawn, leads, codepoint⟩
        exact ⟨k, c, ⟨chars, by rw [same]; rfl, character, drawn, leads⟩, codepoint⟩
      · rintro ⟨k, c, ⟨chars', listed, character, drawn, leads⟩, codepoint⟩
        rw [List.getElem?_singleton, Option.ite_none_right_eq_some, Option.some_inj] at listed
        obtain ⟨same, rfl⟩ := listed
        exact ⟨same, k, c, character, drawn, leads, codepoint⟩
  | @feed chars codepoints lines isLine _ ih =>
      have second : Pen.start.line + 1 = 1 := rfl
      rw [placements_feed, (finalPen_of_isLine isLine rfl).1, second, List.mem_append,
        mem_placements_of_isLine isLine, mem_map_lower_iff, ih]
      obtain ⟨codepoint, x, l⟩ := p
      cases l with
      | zero =>
          constructor
          · rintro (⟨-, k, c, character, drawn, leads, same⟩ | ⟨⟨⟩, -⟩)
            exact ⟨k, c, ⟨_, rfl, character, drawn, leads⟩, same⟩
          · rintro ⟨k, c, ⟨_, ⟨⟩, character, drawn, leads⟩, same⟩
            exact .inl ⟨rfl, k, c, character, drawn, leads, same⟩
      | succ l =>
          refine (or_iff_right ?_).trans (and_iff_right (Nat.succ_pos l))
          rintro ⟨⟨⟩, -⟩

end

/-! ### Counting -/

section
variable {q : Sequence} {text : List Char}

theorem nodup_inkOf (g : Glyph) : (TextCanvas.inkOf g).Nodup := by
  refine List.nodup_flatMap.mpr ⟨?_, ?_⟩
  · intro y _
    refine (List.nodup_range.filter _).map ?_
    intro x x' same
    exact congrArg Prod.fst same
  · refine List.nodup_range.imp ?_
    intro y y' apart p inFirst inSecond
    obtain ⟨x, -, rfl⟩ := List.mem_map.mp inFirst
    obtain ⟨x', -, same⟩ := List.mem_map.mp inSecond
    exact apart (congrArg Prod.snd same).symm

theorem length_inkOf (g : Glyph) : (TextCanvas.inkOf g).length = g.countPixels := by
  rw [Glyph.countPixels_eq_card, ← List.toFinset_card_of_nodup (nodup_inkOf g)]
  congr 1
  ext ⟨x, y⟩
  rw [List.mem_toFinset, TextCanvas.mem_inkOf, Glyph.mem_ink]

/-- No two placed glyphs leave ink on one pixel. -/
theorem nodup_textInk (q : Sequence) (text : List Char) : (q.textInk text).Nodup := by
  refine List.nodup_flatMap.mpr ⟨?_, ?_⟩
  · intro p _
    refine (nodup_inkOf _).map ?_
    rintro ⟨x, y⟩ ⟨x', y'⟩ same
    obtain ⟨column, row⟩ := Prod.mk.inj same
    exact Prod.ext (Nat.add_left_cancel column) (Nat.add_left_cancel row)
  · refine (q.placements_pairwise .start (latin1 text)).imp ?_
    rintro p p' before ⟨x, y⟩ inFirst inSecond
    obtain ⟨left, top, set⟩ := mem_inkAt.mp inFirst
    obtain ⟨left', top', -⟩ := mem_inkAt.mp inSecond
    have inside := Glyph.inBounds_of_pixel set
    rw [Glyph.InBounds, glyph_height] at inside
    rcases before with below | ⟨same, right⟩
    · have rows := q.lineTop_add_le_lineTop below
      omega
    · omega

/-- The codepoints of a text that are drawn are those of its drawn characters. -/
theorem filter_isDrawn_latin1 (text : List Char) :
    ((latin1 text).filter fun codepoint => decide (IsDrawn codepoint)) =
      (drawnOf text).map fun c => UInt8.ofNat c.toNat := by
  induction text with
  | nil => rfl
  | cons c text ih =>
      unfold drawnOf at ih ⊢
      by_cases small : c.toNat ≤ 0xFF
      · have isDrawn := isDrawn_iff (toNat_ofNat_toNat small)
        rw [latin1_cons small, List.filter_cons, List.filter_cons, ih]
        simp only [isDrawn, small, true_and, decide_eq_true_eq]
        split
        · rfl
        · rfl
      · have skipped : latin1 (c :: text) = latin1 text := by
          refine List.filterMap_cons_none (if_neg ?_)
          omega
        rw [skipped, ih, List.filter_cons_of_neg]
        simp [small]

theorem length_textInk (q : Sequence) (text : List Char) :
    (q.textInk text).length = ((drawnOf text).map fun c => (q.glyphOf c).countPixels).sum := by
  have sizes : ∀ p : Placement, (q.inkAt p).length = (q.glyph p.codepoint).countPixels := by
    intro p
    rw [inkAt, List.length_map, length_inkOf]
  calc (q.textInk text).length
      = ((q.placements .start (latin1 text)).map
          fun p => (q.glyph p.codepoint).countPixels).sum := by
        simp only [textInk, List.length_flatMap, sizes]
    _ = (((q.placements .start (latin1 text)).map (·.codepoint)).map
          fun codepoint => (q.glyph codepoint).countPixels).sum := by
        rw [List.map_map]
        rfl
    _ = ((drawnOf text).map fun c => (q.glyphOf c).countPixels).sum := by
        rw [codepoints_placements, filter_isDrawn_latin1, List.map_map]
        rfl

theorem card_setPixels (q : Sequence) (text : List Char) :
    (q.renderText text).setPixels.card = (q.textInk text).length := by
  rw [← List.toFinset_card_of_nodup (q.nodup_textInk text)]
  congr 1
  ext ⟨x, y⟩
  rw [TextCanvas.setPixels, Finset.mem_filter, Finset.mem_product, Finset.mem_range,
    Finset.mem_range, List.mem_toFinset, ← pixel_renderText_iff, and_iff_right_iff_imp,
    pixel_renderText_iff]
  exact inBounds_of_mem_textInk

end

/-! ### Cells -/

section
variable {q : Sequence} {codepoints : List UInt8} {lines : List (List Char)}
  {l l' k k' : ℕ} {c c' : Char} {x x' : ℕ}

theorem mem_cell_iff {i j : ℕ} : (i, j) ∈ q.cell c x l ↔
    (x ≤ i ∧ i < x + (q.glyphOf c).width.toNat) ∧
      q.lineTop l ≤ j ∧ j < q.lineTop l + q.height.toNat :=
  Iff.rfl

/-- A character shares no pixel with those on later lines or later on its own line. -/
theorem inter_cell_of_before (lined : Lined codepoints lines) (first : q.DrawnAt lines l k c x)
    (second : q.DrawnAt lines l' k' c' x') (before : l < l' ∨ l = l' ∧ k < k') :
    q.cell c x l ∩ q.cell c' x' l' = ∅ := by
  rw [Set.eq_empty_iff_forall_notMem]
  rintro ⟨i, j⟩ ⟨inFirst, inSecond⟩
  rw [mem_cell_iff] at inFirst inSecond
  rcases before with below | ⟨rfl, later⟩
  · have rows := q.lineTop_add_le_lineTop below
    omega
  · obtain ⟨chars, listed, character, drawn, leads⟩ := first
    obtain ⟨chars', listed', -, -, leads'⟩ := second
    obtain rfl := Option.some_inj.mp (listed.symm.trans listed')
    have isLine := lined.isLine chars (List.mem_of_getElem? listed)
    have right := le_of_leads_take isLine character drawn later leads leads'
    omega

theorem inter_cell (lined : Lined codepoints lines) (first : q.DrawnAt lines l k c x)
    (second : q.DrawnAt lines l' k' c' x') (apart : (l, k) ≠ (l', k')) :
    q.cell c x l ∩ q.cell c' x' l' = ∅ := by
  have order : (l < l' ∨ l = l' ∧ k < k') ∨ (l' < l ∨ l' = l ∧ k' < k) := by
    rw [Ne, Prod.mk.injEq] at apart
    omega
  rcases order with before | after
  · exact inter_cell_of_before lined first second before
  · rw [Set.inter_comm]
    exact inter_cell_of_before lined second first after

theorem cell_subset_canvas {text : List Char} (drawn : q.DrawnAt (linesOf text) l k c x) :
    q.cell c x l ⊆
      Set.Iio (q.renderText text).width ×ˢ Set.Iio (q.renderText text).height := by
  have placed : ⟨UInt8.ofNat c.toNat, x, l⟩ ∈ q.placements .start (latin1 text) :=
    (mem_placements_iff (lined text)).mpr ⟨k, c, drawn, rfl⟩
  have room := inside_of_mem_placements placed
  have rows := q.lineTop_add_le room.2
  dsimp only at room rows
  rintro ⟨i, j⟩ inside
  rw [mem_cell_iff, glyphOf] at inside
  rw [Set.mem_prod, Set.mem_Iio, Set.mem_Iio, width_renderText, height_renderText]
  omega

theorem pixel_renderText_iff_cell {text : List Char} {i j : ℕ} :
    (q.renderText text).pixel i j = true ↔
      ∃ l k c x, q.DrawnAt (linesOf text) l k c x ∧ (i, j) ∈ q.cell c x l ∧
        (q.glyphOf c).pixel (i - x) (j - q.lineTop l) = true := by
  simp only [pixel_renderText_iff, textInk, List.mem_flatMap, mem_placements_iff (lined text),
    mem_inkAt]
  constructor
  · rintro ⟨⟨codepoint, x, l⟩, ⟨k, c, drawn, rfl⟩, left, top, set⟩
    have inside := Glyph.inBounds_of_pixel set
    rw [Glyph.InBounds, glyph_height] at inside
    refine ⟨l, k, c, x, drawn, ?_, set⟩
    rw [mem_cell_iff, glyphOf]
    dsimp only at left top inside
    omega
  · rintro ⟨l, k, c, x, drawn, inside, set⟩
    rw [mem_cell_iff] at inside
    exact ⟨⟨_, x, l⟩, ⟨k, c, drawn, rfl⟩, inside.1.1, inside.2.1, set⟩

end

/-! ### The canvas -/

/-- A canvas shows every drawn character of a text in a cell of its own, and nothing else. -/
structure LaidOut (q : Sequence) (text : List Char) (canvas : TextCanvas) : Prop where
  columns : ∀ chars ∈ linesOf text, ∀ k, ∃! x, q.Leads 0 (chars.take k) x
  apart : ∀ {l k c x l' k' c' x'}, q.DrawnAt (linesOf text) l k c x →
    q.DrawnAt (linesOf text) l' k' c' x' → (l, k) ≠ (l', k') →
      q.cell c x l ∩ q.cell c' x' l' = ∅
  inside : ∀ {l k c x}, q.DrawnAt (linesOf text) l k c x →
    q.cell c x l ⊆ Set.Iio canvas.width ×ˢ Set.Iio canvas.height
  pixels : ∀ i j, canvas.pixel i j = true ↔ ∃ l k c x, q.DrawnAt (linesOf text) l k c x ∧
    (i, j) ∈ q.cell c x l ∧ (q.glyphOf c).pixel (i - x) (j - l * (q.height.toNat + 2)) = true
  ink : canvas.setPixels.card = ((drawnOf text).map fun c => (q.glyphOf c).countPixels).sum
  width : IsGreatest {x | ∃ chars ∈ linesOf text, ∃ k, q.Leads 0 (chars.take k) x} canvas.width
  height : canvas.height =
    (linesOf text).length * q.height.toNat + ((linesOf text).length - 1) * 2

/-- Rendering loses no ink of a text and draws no glyph over another. -/
theorem renderText_laidOut (q : Sequence) (text : List Char) :
    q.LaidOut text (q.renderText text) where
  columns := by
    intro chars listed k
    have isLine := ((lined text).isLine chars listed).take k
    exact ⟨_, (leads_iff .start isLine).mpr rfl, fun x leads => (leads_iff .start isLine).mp leads⟩
  apart := inter_cell (lined text)
  inside := cell_subset_canvas
  pixels := fun _ _ => pixel_renderText_iff_cell
  ink := by rw [card_setPixels, length_textInk]
  width := by
    rw [width_renderText]
    exact isGreatest_width_of_lined (lined text)
  height := by
    rw [height_renderText, length_of_lined (q := q) (lined text), Nat.add_sub_cancel]
    rfl

end Sequence

end BitmapFont
