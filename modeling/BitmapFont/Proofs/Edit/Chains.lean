import BitmapFont.Proofs.Edit.Pointwise
import BitmapFont.Proofs.Glyph.Inverting
import BitmapFont.Proofs.Glyph.Rowwise

/-!
Transforms one after the other.

A batch transform changes glyph by glyph, and so do several of them on one range. What
they leave, and whether one of them is refused, can therefore be told from what becomes of
a single glyph, `Batch.chain`. A law about glyphs is then a law about sessions. Main facts:

* `Desk.Chain.chained`, `Desk.exists_chain_iff`: transforms in a row come to the same as
  transforming every glyph of the range in a row;
* `Desk.Chain.font_eq`: chains that do the same to every glyph leave the same font;
* `Desk.center_commutes`: centering commutes with the horizontal transforms;
* `Desk.widths_clamp`: padding and cutting clamp widths, in either order;
* `Desk.invert_restores`: inverting twice restores the font.
-/

namespace BitmapFont

/-! ### Chains on a glyph -/

namespace Batch

/-- What transforms make of a glyph one after the other, or the failure that came first. -/
def chain (height : UInt8) : List Batch → Glyph → Except FontError Glyph
  | [], g => .ok g
  | t :: ts, g => t.glyph height g >>= chain height ts

section
variable {height : UInt8} {t t' : Batch} {ts : List Batch} {g m : Glyph}

theorem chain_cons_eq_ok_iff :
    chain height (t :: ts) g = .ok m ↔
      ∃ g', t.glyph height g = .ok g' ∧ chain height ts g' = .ok m := by
  rw [chain]
  cases t.glyph height g with
  | error cause =>
      constructor
      · intro failed
        cases failed
      · rintro ⟨g', failed, -⟩
        cases failed
  | ok g' =>
      constructor
      · intro done
        exact ⟨g', rfl, done⟩
      · rintro ⟨g'', same, done⟩
        cases same
        exact done

theorem chain_singleton (height : UInt8) (t : Batch) (g : Glyph) :
    chain height [t] g = t.glyph height g :=
  bind_pure _

theorem chain_pair (height : UInt8) (t t' : Batch) (g : Glyph) :
    chain height [t, t'] g = (t.glyph height g >>= t'.glyph height) := by
  rw [chain, funext (chain_singleton height t')]

/-- A horizontal transform may come before centering or after it. -/
theorem Horizontal.chain_center (horizontal : t.Horizontal g) :
    chain g.height [.center, t] g = chain g.height [t, .center] g := by
  have commutes := horizontal.glyph_centered
  rw [chain_pair, chain_pair]
  change t.glyph g.height g.centered = _
  rw [commutes]
  cases result : t.glyph g.height g with
  | error cause => rfl
  | ok m =>
      change Except.ok m.centered = .ok (m.trimVertical.centerVertical g.height)
      rw [← (Batch.sameRows result).height]
      rfl

theorem chain_minWidth_maxWidth {a : UInt8} (pos : 0 < a.toNat) (height : UInt8) (g : Glyph) :
    chain height [.minWidth a, .maxWidth a] g = .ok (g.resized a) := by
  rw [chain_pair]
  exact (Glyph.pad_truncate pos UInt8.le_rfl).trans (by rw [g.clampedWidth_self])

theorem chain_maxWidth_minWidth {a : UInt8} (pos : 0 < a.toNat) (height : UInt8) (g : Glyph) :
    chain height [.maxWidth a, .minWidth a] g = .ok (g.resized a) := by
  rw [chain_pair]
  exact (Glyph.truncate_pad pos UInt8.le_rfl).trans (by rw [g.clampedWidth_self])

theorem chain_fixWidth {a : UInt8} (pos : 0 < a.toNat) (height : UInt8) (g : Glyph) :
    chain height [.fixWidth a] g = .ok (g.resized a) := by
  rw [chain_singleton]
  exact Glyph.setWidth_of_pos pos

theorem chain_invert_invert (height : UInt8) (g : Glyph) :
    chain height [.invert, .invert] g = .ok g := by
  rw [chain_pair]
  exact congrArg Except.ok g.invert_invert

end

end Batch

/-! ### Chains on a session -/

/-- Fonts are told by their fields. -/
theorem Font.eq_of_fields {f g : Font} (name : f.name = g.name) (version : f.version = g.version)
    (flags : f.flags = g.flags) (sequences : f.sequences = g.sequences) : f = g := by
  cases f
  cases g
  rw [Font.mk.injEq]
  exact ⟨name, version, flags, sequences⟩

namespace Session

/-- Two edits that leave the same glyphs in the active sequence leave the same font. -/
theorem ChangedAt.font_eq {s a b : Session} {touched touched' : UInt8 → Prop}
    (left : s.ChangedAt touched a) (right : s.ChangedAt touched' b)
    (same : ∀ c, a.glyph c = b.glyph c) : a.font = b.font :=
  Font.eq_of_fields (left.name.trans right.name.symm) (left.version.trans right.version.symm)
    (left.flags.trans right.flags.symm) (left.sequences_eq right same)

/-- What transforms of a range make of a session one after the other. -/
structure Chained (s : Session) (range : CodepointRange) (ts : List Batch) (s' : Session) : Prop
    extends s.ChangedAt range.Contains s' where
  images : ∀ c, range.Contains c →
    Batch.chain s.activeSequence.height ts (s.glyph c) = .ok (s'.glyph c)

end Session

namespace Desk

/-- The desk after a command, whether it was refused or not. -/
def after (d : Desk) (command : Command) : Desk :=
  ((run command).on d).2

/-- Transforms of a range one after the other, none of which is refused. -/
inductive Chain (range : CodepointRange) : Desk → List Batch → Desk → Prop
  | done (d : Desk) : Chain range d [] d
  | next {d mid d' : Desk} {t : Batch} {ts : List Batch} {reply : Reply} :
      (run (.transform range t)).on d = (.ok reply, mid) → Chain range mid ts d' →
      Chain range d (t :: ts) d'

section
variable {d d' mid a b : Desk} {range : CodepointRange} {t t' : Batch} {ts ts' : List Batch}

/-- A first transform and what follows it. -/
theorem transformed_chained (transformed : d.session.Transformed range t mid.session)
    (chained : mid.session.Chained range ts d'.session) :
    d.session.Chained range (t :: ts) d'.session where
  toChangedAt := by
    have both := transformed.toChangedAt.trans chained.toChangedAt
    simpa only [or_self] using both
  images := by
    intro c contained
    have images := chained.images c contained
    rw [transformed.metrics.height] at images
    exact Batch.chain_cons_eq_ok_iff.mpr ⟨_, transformed.images c contained, images⟩

theorem Chain.chained (chain : d.Chain range ts d') : d.session.Chained range ts d'.session := by
  induction chain with
  | done d => exact ⟨.refl _ _, fun _ _ => rfl⟩
  | next ran rest ih => exact transformed_chained (transformed_of_run ran).2 ih

theorem Chain.named (chain : d.Chain range ts d') : ∀ t ∈ ts, t.width? ≠ some 0 := by
  induction chain with
  | done d =>
      intro t mem
      cases mem
  | next ran rest ih => exact List.forall_mem_cons.mpr ⟨(transformed_of_run ran).1, ih⟩

/-- Transforms that fail at no glyph of the range are not refused. -/
theorem exists_chain (named : ∀ t ∈ ts, t.width? ≠ some 0)
    (images : ∀ c, range.Contains c →
      ∃ g, Batch.chain d.session.activeSequence.height ts (d.session.glyph c) = .ok g) :
    ∃ d', d.Chain range ts d' := by
  induction ts generalizing d with
  | nil => exact ⟨d, .done d⟩
  | cons t ts ih =>
      obtain ⟨first, others⟩ := List.forall_mem_cons.mp named
      have images₁ : ∀ c, range.Contains c →
          ∃ g, t.outcome d.session.activeSequence c = .ok g := by
        intro c contained
        obtain ⟨g, done⟩ := images c contained
        obtain ⟨g', drawn, -⟩ := Batch.chain_cons_eq_ok_iff.mp done
        exact ⟨g', drawn⟩
      obtain ⟨mid, ran, transformed⟩ := run_transform_of_forall first images₁
      -- The rest of the chain starts from the glyphs that the first transform left.
      obtain ⟨d', rest⟩ := ih (d := mid) others (by
        intro c contained
        obtain ⟨g, done⟩ := images c contained
        obtain ⟨g', drawn, rest⟩ := Batch.chain_cons_eq_ok_iff.mp done
        have image := transformed.images c contained
        rw [Batch.outcome] at image
        cases drawn.symm.trans image
        rw [transformed.metrics.height]
        exact ⟨g, rest⟩)
      exact ⟨d', .next ran rest⟩

/-- Transforms in a row are accepted if they can be made in a row at every glyph. -/
theorem exists_chain_iff : (∃ d', d.Chain range ts d') ↔ (∀ t ∈ ts, t.width? ≠ some 0) ∧
    ∀ c, range.Contains c →
      ∃ g, Batch.chain d.session.activeSequence.height ts (d.session.glyph c) = .ok g := by
  constructor
  · rintro ⟨d', chain⟩
    exact ⟨chain.named, fun c contained => ⟨_, chain.chained.images c contained⟩⟩
  · rintro ⟨named, images⟩
    exact exists_chain named images

/-- Chains that do the same to every glyph of the range leave the same font. -/
theorem Chain.font_eq (left : d.Chain range ts a) (right : d.Chain range ts' b)
    (same : ∀ c, range.Contains c →
      Batch.chain d.session.activeSequence.height ts (d.session.glyph c) =
        Batch.chain d.session.activeSequence.height ts' (d.session.glyph c)) :
    a.session.font = b.session.font := by
  refine left.chained.font_eq right.chained.toChangedAt ?_
  intro c
  by_cases contained : range.Contains c
  · have images := left.chained.images c contained
    rw [same c contained, right.chained.images c contained] at images
    exact (Except.ok.inj images).symm
  · rw [left.chained.glyphs c contained, right.chained.glyphs c contained]

/-- Two transforms that are both accepted lead where their commands lead. -/
theorem Chain.after_eq (chain : d.Chain range [t, t'] d') :
    (d.after (.transform range t)).after (.transform range t') = d' := by
  cases chain with
  | next ran rest =>
      cases rest with
      | next ran' rest =>
          cases rest
          simp only [after, ran, ran']

/-- Transforms that never fail are not refused. -/
theorem exists_chain_of_images (d : Desk) (range : CodepointRange) {image : Glyph → Glyph}
    (named : ∀ t ∈ ts, t.width? ≠ some 0)
    (images : ∀ g, Batch.chain d.session.activeSequence.height ts g = .ok (image g)) :
    ∃ d', d.Chain range ts d' :=
  exists_chain named fun _ _ => ⟨_, images _⟩

end

/-! ### Centering and horizontal transforms -/

section
variable {d : Desk} {range : CodepointRange} {t : Batch}

/-- A transform is accepted, or it is refused and changes nothing. -/
theorem run_transform_cases (d : Desk) (range : CodepointRange) (t : Batch) :
    (∃ d', (run (.transform range t)).on d = (.ok .done, d')) ∨
      ∃ cause, (run (.transform range t)).on d = (.error cause, d) := by
  rw [run_transform]
  cases t.sequence range d.session.activeSequence with
  | error cause => exact .inr ⟨cause, rfl⟩
  | ok q => exact .inl ⟨_, rfl⟩

theorem run_center (d : Desk) (range : CodepointRange) :
    ∃ d', (run (.transform range .center)).on d = (.ok .done, d') := by
  have named : Batch.center.width? ≠ some 0 := nofun
  obtain ⟨d', ran, -⟩ := run_transform_of_forall (d := d) named fun _ _ => ⟨_, rfl⟩
  exact ⟨d', ran⟩

theorem chain_center_eq (horizontal : ∀ c, range.Contains c → t.Horizontal (d.session.glyph c))
    (c : UInt8) (contained : range.Contains c) :
    Batch.chain d.session.activeSequence.height [.center, t] (d.session.glyph c) =
      Batch.chain d.session.activeSequence.height [t, .center] (d.session.glyph c) := by
  have commutes := (horizontal c contained).chain_center
  rwa [Session.glyph, Sequence.glyph_height] at commutes

theorem exists_chain_center_iff
    (horizontal : ∀ c, range.Contains c → t.Horizontal (d.session.glyph c)) :
    (∃ d', d.Chain range [.center, t] d') ↔ ∃ d', d.Chain range [t, .center] d' := by
  rw [exists_chain_iff, exists_chain_iff]
  apply and_congr
  · rw [List.forall_mem_cons, List.forall_mem_singleton, List.forall_mem_cons,
      List.forall_mem_singleton, and_comm]
  · apply forall₂_congr
    intro c contained
    rw [chain_center_eq horizontal c contained]

/-- A horizontal transform that is refused is refused after centering, too. -/
theorem refused_after_center {centered : Desk} {cause : FontError}
    (horizontal : ∀ c, range.Contains c → t.Horizontal (d.session.glyph c))
    (ran : (run (.transform range .center)).on d = (.ok .done, centered))
    (refused : (run (.transform range t)).on d = (.error cause, d)) :
    ∃ cause', (run (.transform range t)).on centered = (.error cause', centered) := by
  rcases centered.run_transform_cases range t with ⟨a, ran'⟩ | refused'
  · obtain ⟨b, right⟩ :=
      (exists_chain_center_iff horizontal).mp ⟨a, .next ran (.next ran' (.done a))⟩
    cases right with
    | next accepted rest =>
        rw [refused] at accepted
        cases accepted
  · exact refused'

/-- Whatever is refused, both orders leave the same font. -/
theorem font_after_center (horizontal : ∀ c, range.Contains c → t.Horizontal (d.session.glyph c)) :
    ((d.after (.transform range .center)).after (.transform range t)).session.font =
      ((d.after (.transform range t)).after (.transform range .center)).session.font := by
  rcases d.run_transform_cases range t with ⟨changed, ran⟩ | ⟨cause, refused⟩
  · obtain ⟨b, ran'⟩ := changed.run_center range
    have right : d.Chain range [t, .center] b := .next ran (.next ran' (.done b))
    obtain ⟨a, left⟩ := (exists_chain_center_iff horizontal).mpr ⟨b, right⟩
    rw [left.after_eq, right.after_eq]
    exact left.font_eq right (chain_center_eq horizontal)
  · obtain ⟨centered, ran⟩ := d.run_center range
    obtain ⟨cause', refused'⟩ := refused_after_center horizontal ran refused
    simp only [after, ran, refused, refused']

/-- Centering commutes with the transforms that work row by row: in either order both are
accepted or not, and either way they leave the same font. -/
theorem center_commutes (d : Desk) (range : CodepointRange) (t : Batch)
    (horizontal : ∀ c, range.Contains c → t.Horizontal (d.session.glyph c)) :
    ((∃ d', d.Chain range [.center, t] d') ↔ ∃ d', d.Chain range [t, .center] d') ∧
    (∀ d₁ d₂, d.Chain range [.center, t] d₁ → d.Chain range [t, .center] d₂ →
      d₁.session.font = d₂.session.font) ∧
    ((d.after (.transform range .center)).after (.transform range t)).session.font =
      ((d.after (.transform range t)).after (.transform range .center)).session.font := by
  refine ⟨exists_chain_center_iff horizontal, ?_, font_after_center horizontal⟩
  intro d₁ d₂ left right
  exact left.font_eq right (chain_center_eq horizontal)

/-- Setting the greatest width cuts nothing. -/
theorem horizontal_widest (g : Glyph) : (Batch.fixWidth 255).Horizontal g :=
  UInt8.le_iff_toNat_le.mpr (Nat.le_of_lt_succ g.width.toNat_lt)

theorem center_commutes_wide :
    ((∃ d', wide.Chain .all [.center, .fixWidth 255] d') ↔
        ∃ d', wide.Chain .all [.fixWidth 255, .center] d') ∧
      ((wide.after (.transform .all .center)).after (.transform .all .bold)).session.font =
        ((wide.after (.transform .all .bold)).after (.transform .all .center)).session.font := by
  obtain ⟨accepted, -, -⟩ :=
    center_commutes wide .all (.fixWidth 255) fun _ _ => horizontal_widest _
  obtain ⟨-, -, refused⟩ := center_commutes wide .all .bold fun _ _ => trivial
  exact ⟨accepted, refused⟩

end

/-! ### Widths -/

section
variable {d : Desk} {range : CodepointRange} {a : UInt8}

/-- Both orders of padding and cutting to one width come to setting it. -/
theorem exists_chains_fixWidth (d : Desk) (range : CodepointRange) (pos : 0 < a.toNat) :
    ∃ d' d₁ d₂, d.Chain range [.fixWidth a] d' ∧ d.Chain range [.minWidth a, .maxWidth a] d₁ ∧
      d.Chain range [.maxWidth a, .minWidth a] d₂ ∧ d₁.session.font = d'.session.font ∧
      d₂.session.font = d'.session.font := by
  have named : ∀ {t : Batch}, t.width? = some a → t.width? ≠ some 0 := by
    rintro t asked zero
    cases asked.symm.trans zero
    exact Nat.lt_irrefl 0 pos
  obtain ⟨d', set⟩ := d.exists_chain_of_images range
    (List.forall_mem_singleton.mpr (named rfl)) (Batch.chain_fixWidth pos _)
  obtain ⟨d₁, padded⟩ := d.exists_chain_of_images range
    (List.forall_mem_cons.mpr ⟨named rfl, List.forall_mem_singleton.mpr (named rfl)⟩)
    (Batch.chain_minWidth_maxWidth pos _)
  obtain ⟨d₂, cut⟩ := d.exists_chain_of_images range
    (List.forall_mem_cons.mpr ⟨named rfl, List.forall_mem_singleton.mpr (named rfl)⟩)
    (Batch.chain_maxWidth_minWidth pos _)
  refine ⟨d', d₁, d₂, set, padded, cut, padded.font_eq set ?_, cut.font_eq set ?_⟩
  · intro c _
    rw [Batch.chain_minWidth_maxWidth pos, Batch.chain_fixWidth pos]
  · intro c _
    rw [Batch.chain_maxWidth_minWidth pos, Batch.chain_fixWidth pos]

end

/-- A width in between does not matter unless it cuts columns that are wanted later.
Padding to a smaller width and cutting to a greater one clamp the width of a glyph, in
either order, and to a single width they come to setting it, also for a range of glyphs. -/
theorem widths_clamp :
    (∀ (g : Glyph) (a b : UInt8), 1 ≤ a.toNat → 1 ≤ b.toNat →
      min b.toNat g.width.toNat ≤ a.toNat →
      ∃ m, (g.setWidth a >>= (·.setWidth b)) = .ok m ∧ g.setWidth b = .ok m) ∧
    (∀ (g : Glyph) (lo hi : UInt8), 1 ≤ lo.toNat → lo ≤ hi →
      ∃ m, (g.padToMin lo >>= (·.truncateToMax hi)) = .ok m ∧
        (g.truncateToMax hi >>= (·.padToMin lo)) = .ok m ∧ g.Clamped lo hi m) ∧
    (∀ (g : Glyph) (a : UInt8), 1 ≤ a.toNat →
      ∃ m, (g.padToMin a >>= (·.truncateToMax a)) = .ok m ∧
        (g.truncateToMax a >>= (·.padToMin a)) = .ok m ∧ g.setWidth a = .ok m) ∧
    ∀ (d : Desk) (range : CodepointRange) (a : UInt8), 1 ≤ a.toNat →
      ∃ d' d₁ d₂, d.Chain range [.fixWidth a] d' ∧ d.Chain range [.minWidth a, .maxWidth a] d₁ ∧
        d.Chain range [.maxWidth a, .minWidth a] d₂ ∧ d₁.session.font = d'.session.font ∧
        d₂.session.font = d'.session.font := by
  refine ⟨?_, ?_, ?_, ?_⟩
  · intro g a b posA posB wide
    refine ⟨g.resized b, ?_, Glyph.setWidth_of_pos posB⟩
    rw [Glyph.setWidth_of_pos posA, ← Glyph.resized_resized posA posB wide]
    exact Glyph.setWidth_of_pos posB
  · intro g lo hi pos le
    exact ⟨_, Glyph.pad_truncate pos le, Glyph.truncate_pad pos le, g.clamped_resized pos⟩
  · intro g a pos
    refine ⟨g.resized (g.clampedWidth a a), Glyph.pad_truncate pos UInt8.le_rfl,
      Glyph.truncate_pad pos UInt8.le_rfl, ?_⟩
    rw [g.clampedWidth_self]
    exact Glyph.setWidth_of_pos pos
  · intro d range a pos
    exact exists_chains_fixWidth d range pos

theorem widths_clamp_underline :
    (∃ m, (Glyph.underline.setWidth 3 >>= (·.setWidth 2)) = .ok m ∧
        Glyph.underline.setWidth 2 = .ok m) ∧
      (∃ m, (Glyph.underline.padToMin 9 >>= (·.truncateToMax 200)) = .ok m ∧
        m.width.toNat = 9 ∧ m.pixel 3 3 = true ∧ m.pixel 4 3 = false) ∧
      (∃ m, (Glyph.underline.truncateToMax 2 >>= (·.padToMin 2)) = .ok m ∧
        Glyph.underline.setWidth 2 = .ok m) ∧
      ∃ d' d₁, wide.Chain .all [.fixWidth 7] d' ∧ wide.Chain .all [.minWidth 7, .maxWidth 7] d₁ ∧
        d₁.session.font = d'.session.font := by
  obtain ⟨twice, clamps, single, sessions⟩ := widths_clamp
  refine ⟨twice _ 3 2 (by decide) (by decide) (by decide), ?_, ?_, ?_⟩
  · obtain ⟨m, padded, -, clamped⟩ := clamps .underline 9 200 (by decide) (by decide)
    have width : m.width.toNat = 9 := clamped.width
    refine ⟨m, padded, width, ?_, clamped.added 4 3 (by decide)⟩
    exact (clamped.common 3 3 (by omega) (by decide)).trans (by decide)
  · obtain ⟨m, -, cut, set⟩ := single .underline 2 (by decide)
    exact ⟨m, cut, set⟩
  · obtain ⟨d', d₁, -, set, padded, -, same, -⟩ := sessions wide .all 7 (by decide)
    exact ⟨d', d₁, set, padded, same⟩

/-! ### Inverting -/

/-- Inverting twice restores a glyph, and twice any range of glyphs restores the font. A
glyph and its inverse fill the bitmap, and both can be shifted before inverting or after
it. -/
theorem invert_restores :
    (∀ g : Glyph, g.invert.invert = g ∧
      g.invert.countPixels + g.countPixels = g.width.toNat * g.height.toNat ∧
      ∀ dx dy, (g.shift dx dy).invert = g.invert.shift dx dy) ∧
    ∀ (d : Desk) (range : CodepointRange),
      ∃ d', d.Chain range [.invert, .invert] d' ∧ d'.session.font = d.session.font := by
  constructor
  · intro g
    exact ⟨g.invert_invert, g.countPixels_invert, g.invert_shift⟩
  · intro d range
    have named : Batch.invert.width? ≠ some 0 := nofun
    obtain ⟨d', twice⟩ := d.exists_chain_of_images range
      (List.forall_mem_cons.mpr ⟨named, List.forall_mem_singleton.mpr named⟩)
      (Batch.chain_invert_invert _)
    refine ⟨d', twice, twice.font_eq (.done d) ?_⟩
    intro c _
    exact Batch.chain_invert_invert _ _

end Desk

end BitmapFont
