import BitmapFont.Proofs.Edit.Batches

/-!
Ways of filling a sequence.

A sequence can be made of a full table of glyphs, glyphs can be stored one at a time under
given codepoints, and several can be stored at once, each under its own. The table numbers
its glyphs as it goes along, and the others go by a codepoint that they are given or that
they find in the glyph. Main facts:

* `Sequence.ofGlyphs_eq_ok_iff`: which tables make a sequence, and which sequence;
* `SequenceCommand.on_storeEach`: storing glyphs one at a time is storing them at once
  under the codepoints that they are given;
* `Sequence.fillings_agree`: all ways lead to the same sequence.
-/

namespace BitmapFont

namespace SequenceCommand

/-- Stores glyphs one after the other, each under the codepoint that comes with it. -/
def storeEach (stores : List (UInt8 × Glyph)) : Change Sequence Unit :=
  forM stores fun store => (setGlyph store.1 store.2).run

end SequenceCommand

namespace Sequence

/-- Glyphs under consecutive codepoints from `next` on. After the last codepoint comes the
first. -/
def numbered : (next : UInt8) → List Glyph → List Glyph
  | _, [] => []
  | next, g :: rest => g.withCodepoint next :: numbered (next + 1) rest

/-- A sequence into which glyphs were stored, each under its own codepoint. -/
structure Filled (s : Sequence) (glyphs : List Glyph) (t : Sequence) : Prop
    extends s.SameMetrics t where
  last : ∀ before g after, glyphs = before ++ g :: after →
    (∀ later ∈ after, later.codepoint ≠ g.codepoint) → t.glyph g.codepoint = g
  kept : ∀ c, (∀ g ∈ glyphs, g.codepoint ≠ c) → t.glyph c = s.glyph c

/-! ### Full tables -/

section
variable {height baseline pointSize : UInt8} {glyphs : Vector Glyph glyphCount} {t : Sequence}

theorem checkMetrics_of_lt (below : baseline.toNat < height.toNat) :
    checkMetrics height baseline = .ok ⟨below⟩ := by
  have pos : height ≠ 0 := toNat_pos_iff.mp (Nat.lt_of_le_of_lt (Nat.zero_le _) below)
  rw [checkMetrics, if_neg pos, dif_pos below]

theorem empty_eq_ok_iff :
    empty height baseline pointSize = .ok t ↔
      ∃ below, t = blank height baseline pointSize below := by
  constructor
  · intro made
    unfold empty at made
    cases checked : checkMetrics height baseline with
    | error cause =>
        rw [checked] at made
        cases made
    | ok proof =>
        rw [checked] at made
        cases made
        exact ⟨proof.down, rfl⟩
  · rintro ⟨below, rfl⟩
    rw [empty, checkMetrics_of_lt below]
    rfl

/-- A table makes a sequence if the metrics are possible and every glyph fits. -/
theorem ofGlyphs_eq_ok_iff :
    ofGlyphs height baseline pointSize glyphs = .ok t ↔
      ∃ below, ∃ fits : ∀ c, (entry glyphs c).height = height,
        t = ofFn height baseline pointSize below (entry glyphs) fits := by
  constructor
  · intro made
    unfold ofGlyphs at made
    cases checked : checkMetrics height baseline with
    | error cause =>
        rw [checked] at made
        cases made
    | ok proof =>
        rw [checked] at made
        simp only [bind, Except.bind] at made
        split at made
        · cases made
        · cases made
          exact ⟨proof.down, _, rfl⟩
  · rintro ⟨below, fits, rfl⟩
    exact ofGlyphs_of_fits pointSize below fits

theorem forall_entry_iff {p : Glyph → Prop} :
    (∀ c, p (entry glyphs c)) ↔ ∀ g ∈ glyphs, p g := by
  constructor
  · intro entries g mem
    obtain ⟨i, inside, rfl⟩ := Vector.mem_iff_getElem.mp mem
    have index : (UInt8.ofNat i).toNat = i := by simpa using inside
    have at_index := entries (UInt8.ofNat i)
    simpa only [entry, index] using at_index
  · intro all c
    exact all _ (Vector.getElem_mem _)

theorem getElem?_numbered (next : UInt8) (list : List Glyph) (i : Nat) :
    (numbered next list)[i]? =
      list[i]?.map (·.withCodepoint (next + UInt8.ofNat i)) := by
  induction list generalizing next i with
  | nil => rfl
  | cons g rest ih =>
      cases i with
      | zero => simp [numbered]
      | succ i =>
          have later : next + 1 + UInt8.ofNat i = next + UInt8.ofNat (i + 1) := by
            rw [UInt8.ofNat_add, UInt8.add_assoc, UInt8.add_comm 1]
            rfl
          simp only [numbered, List.getElem?_cons_succ, ih, later]

/-- Counting along the table numbers every glyph with its index. -/
theorem toList_ofFn_entry (below : baseline.toNat < height.toNat)
    (fits : ∀ c, (entry glyphs c).height = height) :
    (ofFn height baseline pointSize below (entry glyphs) fits).glyphs.toList =
      numbered 0 glyphs.toList := by
  apply List.ext_getElem?
  intro i
  rw [getElem?_numbered]
  by_cases inside : i < glyphCount
  · simp [ofFn, entry, inside, UInt8.ofNatLT_eq_ofNat]
  · simp [inside]

end

/-! ### One at a time -/

theorem insert_withCodepoint {s : Sequence} {g : Glyph} (c : UInt8) (fits : g.height = s.height) :
    s.insert (g.withCodepoint c) = s.withGlyph c g fits :=
  dif_pos fits

/-- What is stored is told by the last glyph of every codepoint. -/
theorem filled_foldl_insert {s : Sequence} {glyphs : List Glyph}
    (fits : ∀ g ∈ glyphs, g.height = s.height) : s.Filled glyphs (glyphs.foldl insert s) where
  toSameMetrics := s.sameMetrics_foldl_insert glyphs
  last := by
    rintro before g after rfl others
    have none : after.filter (fun later => later.codepoint = g.codepoint) = [] := by
      rw [List.filter_eq_nil_iff]
      intro later mem
      simpa using others later mem
    rw [glyph_foldl_insert fits, List.filter_append,
      List.filter_cons_of_pos (by simp), none, List.getLast?_append]
    rfl
  kept := by
    intro c others
    have none : glyphs.filter (fun g => g.codepoint = c) = [] := by
      rw [List.filter_eq_nil_iff]
      intro g mem
      simpa using others g mem
    rw [glyph_foldl_insert fits, none]
    rfl

end Sequence

namespace SequenceCommand

/-- Storing glyphs one at a time is storing them at once, each under the codepoint that it
was given. -/
theorem on_storeEach {stores : List (UInt8 × Glyph)} {s : Sequence}
    (fits : ∀ store ∈ stores, store.2.height = s.height) :
    (storeEach stores).on s =
      (.ok (),
        (stores.map fun store => store.2.withCodepoint store.1).foldl Sequence.insert s) := by
  induction stores generalizing s with
  | nil => rfl
  | cons store rest ih =>
      obtain ⟨fitsFirst, fitsRest⟩ := List.forall_mem_cons.mp fits
      have stored : (setGlyph store.1 store.2).run.on s =
          (.ok (), s.insert (store.2.withCodepoint store.1)) := by
        rw [on_run, Sequence.insert_withCodepoint store.1 fitsFirst]
        simp only [result, setGlyph_of_eq store.1 fitsFirst]
      rw [storeEach, List.forM_cons, Change.on_bind, stored]
      exact ih fun later mem =>
        (fitsRest later mem).trans (s.sameMetrics_insert _).height.symm

section
variable {s t : Sequence} {glyphs : List Glyph}

theorem on_replaceGlyphs (fits : ∀ g ∈ glyphs, g.height = s.height) :
    (replaceGlyphs glyphs).run.on s = (.ok (), glyphs.foldl Sequence.insert s) := by
  rw [on_run]
  simp only [result, replaceGlyphs_of_forall fits]

/-- None of several glyphs is stored if one does not fit. -/
theorem fits_of_on_replaceGlyphs (stored : (replaceGlyphs glyphs).run.on s = (.ok (), t)) :
    ∀ g ∈ glyphs, g.height = s.height := by
  intro g mem
  apply Classical.byContradiction
  intro mismatch
  obtain ⟨cause, refused⟩ := replaceGlyphs_of_mem mem mismatch
  rw [on_run] at stored
  simp only [result, refused] at stored
  cases stored

/-- Several glyphs can be stored one at a time instead. -/
theorem on_storeEach_own (fits : ∀ g ∈ glyphs, g.height = s.height) :
    (storeEach (glyphs.map fun g => (g.codepoint, g))).on s =
      (.ok (), glyphs.foldl Sequence.insert s) := by
  have fitsEach : ∀ store ∈ glyphs.map fun g => (g.codepoint, g), store.2.height = s.height := by
    intro store mem
    obtain ⟨g, listed, rfl⟩ := List.mem_map.mp mem
    exact fits g listed
  rw [on_storeEach fitsEach, List.map_map]
  simp only [Function.comp_def, Glyph.withCodepoint_self, List.map_id']

end

end SequenceCommand

/-! ### Agreement -/

namespace Sequence

/-- The glyphs of a table can be stored one at a time instead, in any order. -/
theorem on_storeEach_entries {height baseline pointSize : UInt8} {glyphs : Vector Glyph glyphCount}
    (below : baseline.toNat < height.toNat) (fits : ∀ c, (entry glyphs c).height = height)
    {order : List UInt8} (complete : ∀ c, c ∈ order) :
    (SequenceCommand.storeEach (order.map fun c => (c, entry glyphs c))).on
        (blank height baseline pointSize below) =
      (.ok (), ofFn height baseline pointSize below (entry glyphs) fits) := by
  have fitsEach : ∀ store ∈ order.map fun c => (c, entry glyphs c), store.2.height = height := by
    intro store mem
    obtain ⟨c, -, rfl⟩ := List.mem_map.mp mem
    exact fits c
  have rows : ∀ c, ((blank height baseline pointSize below).glyph c).SameRows
      ((entry glyphs c).withCodepoint c) := by
    intro c
    exact ⟨(glyph_codepoint _ c).symm,
      (fits c).trans (glyph_height (blank height baseline pointSize below) c).symm⟩
  rw [SequenceCommand.on_storeEach fitsEach, List.map_map]
  have metrics := (blank height baseline pointSize below).sameMetrics_foldl_insert
    (order.map fun c => (entry glyphs c).withCodepoint c)
  refine congrArg _ (ext_glyphs metrics.height metrics.baseline metrics.pointSize ?_)
  intro c
  have stored := Batch.glyph_foldl_insert_images order _ rows c
  rw [if_pos (complete c)] at stored
  exact stored.trans (glyph_ofFn below fits c).symm

/-- A table of glyphs makes a sequence wherever an empty sequence can be made and every
glyph has its height, and the glyphs can then be stored one at a time in the empty one, in
any order, with the same result. The table counts from zero to number its glyphs, whatever
codepoints they had. Several glyphs can be stored at once wherever all have the height of
the sequence, and then one at a time with the same result: the last glyph for a codepoint
stays, and a codepoint without one keeps its glyph. -/
theorem fillings_agree :
    (∀ (height baseline pointSize : UInt8) (glyphs : Vector Glyph glyphCount),
      ((∃ t, ofGlyphs height baseline pointSize glyphs = .ok t) ↔
        (∃ start, empty height baseline pointSize = .ok start) ∧ ∀ g ∈ glyphs, g.height = height) ∧
      ∀ start t, empty height baseline pointSize = .ok start →
        ofGlyphs height baseline pointSize glyphs = .ok t →
        t.glyphs.toList = numbered 0 glyphs.toList ∧
        ∀ order : List UInt8, (∀ c, c ∈ order) →
          (SequenceCommand.storeEach (order.map fun c => (c, entry glyphs c))).on start =
            (.ok (), t)) ∧
    ∀ (s : Sequence) (glyphs : List Glyph),
      ((∃ t, (SequenceCommand.replaceGlyphs glyphs).run.on s = (.ok (), t)) ↔
        ∀ g ∈ glyphs, g.height = s.height) ∧
      ∀ t, (SequenceCommand.replaceGlyphs glyphs).run.on s = (.ok (), t) →
        (SequenceCommand.storeEach (glyphs.map fun g => (g.codepoint, g))).on s = (.ok (), t) ∧
        s.Filled glyphs t := by
  constructor
  · intro height baseline pointSize glyphs
    constructor
    · rw [← forall_entry_iff]
      constructor
      · rintro ⟨t, made⟩
        obtain ⟨below, fits, -⟩ := ofGlyphs_eq_ok_iff.mp made
        exact ⟨⟨_, empty_eq_ok_iff.mpr ⟨below, rfl⟩⟩, fits⟩
      · rintro ⟨⟨start, made⟩, fits⟩
        obtain ⟨below, -⟩ := empty_eq_ok_iff.mp made
        exact ⟨_, ofGlyphs_of_fits pointSize below fits⟩
    · intro start t started made
      obtain ⟨below, rfl⟩ := empty_eq_ok_iff.mp started
      obtain ⟨-, fits, rfl⟩ := ofGlyphs_eq_ok_iff.mp made
      exact ⟨toList_ofFn_entry below fits, fun order complete =>
        on_storeEach_entries below fits complete⟩
  · intro s glyphs
    constructor
    · constructor
      · rintro ⟨t, stored⟩
        exact SequenceCommand.fits_of_on_replaceGlyphs stored
      · intro fits
        exact ⟨_, SequenceCommand.on_replaceGlyphs fits⟩
    · intro t stored
      have fits := SequenceCommand.fits_of_on_replaceGlyphs stored
      rw [SequenceCommand.on_replaceGlyphs fits] at stored
      cases stored
      exact ⟨SequenceCommand.on_storeEach_own fits, filled_foldl_insert fits⟩

/-- A table that holds one glyph everywhere, stored from the last codepoint to the first,
and two glyphs for the letter A. -/
theorem fillings_agree_repeated :
    (∃ start t, empty 2 1 9 = .ok start ∧
      ofGlyphs 2 1 9 (Vector.replicate glyphCount (.blank 7 3 2)) = .ok t ∧
      (SequenceCommand.storeEach (CodepointRange.all.codepoints.reverse.map fun c =>
        (c, entry (Vector.replicate glyphCount (.blank 7 3 2)) c))).on start = (.ok (), t)) ∧
    ∃ t, (SequenceCommand.replaceGlyphs [.blank 65 3 16, .blank 65 5 16]).run.on
        Font.initialSequence = (.ok (), t) ∧
      t.glyph 65 = .blank 65 5 16 ∧ t.glyph 66 = Font.initialSequence.glyph 66 := by
  obtain ⟨tables, several⟩ := fillings_agree
  constructor
  · obtain ⟨accepted, same⟩ := tables 2 1 9 (Vector.replicate glyphCount (.blank 7 3 2))
    have started : empty 2 1 9 = .ok (blank 2 1 9 (by decide)) := rfl
    have fits : ∀ g ∈ Vector.replicate glyphCount (Glyph.blank 7 3 2), g.height = 2 := by
      intro g mem
      rw [(Vector.mem_replicate.mp mem).2]
      rfl
    obtain ⟨t, made⟩ := accepted.mpr ⟨⟨_, started⟩, fits⟩
    have complete : ∀ c, c ∈ CodepointRange.all.codepoints.reverse := by
      intro c
      rw [List.mem_reverse, CodepointRange.mem_codepoints]
      exact ⟨Int.natCast_nonneg _, Int.ofNat_le.mpr (Nat.le_of_lt_succ c.toNat_lt)⟩
    exact ⟨_, t, started, made, (same _ t started made).2 _ complete⟩
  · obtain ⟨accepted, same⟩ := several Font.initialSequence [.blank 65 3 16, .blank 65 5 16]
    obtain ⟨t, stored⟩ := accepted.mpr (List.forall_mem_cons.mpr
      ⟨rfl, List.forall_mem_singleton.mpr rfl⟩)
    obtain ⟨-, filled⟩ := same t stored
    refine ⟨t, stored, filled.last [.blank 65 3 16] (.blank 65 5 16) [] rfl ?_, ?_⟩
    · intro later mem
      cases mem
    · apply filled.kept
      rw [List.forall_mem_cons, List.forall_mem_singleton]
      exact ⟨by decide, by decide⟩

end Sequence

end BitmapFont
