import BitmapFont.Proofs.Edit.Chains
import BitmapFont.Proofs.Text.Measuring
import Mathlib.Data.List.Forall2

/-!
One sequence for all.

The active sequence can be copied over all others. They may be of other heights, and
height, baseline and glyphs go together. `Sequence.CopyOf` says what becomes of one
sequence. Main facts:

* `Session.sequences_copiedToAll`: every sequence, the active one included, becomes the
  active one at its own point size;
* `Sequence.CopyOf.renderText_eq`: a text looks the same in a copy;
* `Desk.copySequenceToAll_overwrites`: what becomes of all sequences of a session, and
  that copying again changes nothing.
-/

namespace BitmapFont

namespace Sequence

/-- What becomes of a sequence that another one is copied over. -/
structure CopyOf (q source q' : Sequence) : Prop where
  height : q'.height = source.height
  baseline : q'.baseline = source.baseline
  glyphs : q'.glyphs = source.glyphs
  pointSize : q'.pointSize = q.pointSize

section
variable {q source q' : Sequence}

theorem copyOf_setPointSize (q source : Sequence) :
    q.CopyOf source (source.setPointSize q.pointSize) :=
  ⟨rfl, rfl, rfl, rfl⟩

theorem CopyOf.glyph_eq (copied : q.CopyOf source q') (codepoint : UInt8) :
    q'.glyph codepoint = source.glyph codepoint := by
  rw [glyph, glyph, copied.glyphs]

/-- A text looks the same in a copy: its point size does not show. -/
theorem CopyOf.renderText_eq (copied : q.CopyOf source q') (text : List Char) :
    q'.renderText text = source.renderText text :=
  renderText_congr copied.height copied.glyph_eq text

theorem CopyOf.measureText_eq (copied : q.CopyOf source q') (text : List Char) :
    q'.measureText text = source.measureText text :=
  measureText_congr copied.glyph_eq text

end

end Sequence

namespace Session

/-- The session after its active sequence was copied over all others. -/
def copiedToAll (s : Session) : Session :=
  s.committed "Copy sequence to all"
    (s.mapping fun i q => if i = s.active then q else q.copyGlyphsFrom s.activeSequence)

/-- The active sequence is left out of the copying, but it is a copy of itself. -/
theorem sequences_copiedToAll (s : Session) :
    s.copiedToAll.font.sequences =
      s.font.sequences.map fun q => s.activeSequence.setPointSize q.pointSize := by
  change s.font.sequences.mapIdx _ = _
  refine List.ext_getElem (by simp) fun i inside _ => ?_
  rw [List.getElem_mapIdx, List.getElem_map]
  by_cases active : i = s.active
  · subst active
    exact if_pos rfl
  · exact if_neg active

theorem activeSequence_copiedToAll (s : Session) :
    s.copiedToAll.activeSequence = s.activeSequence := by
  have inside : s.active < s.copiedToAll.font.sequences.length := s.copiedToAll.active_lt
  change s.copiedToAll.font.sequences[s.active] = s.activeSequence
  simp only [s.sequences_copiedToAll, List.getElem_map]
  rfl

/-- What becomes of a session when its active sequence is copied over all others. -/
structure Overwritten (s s' : Session) : Prop where
  name : s'.font.name = s.font.name
  version : s'.font.version = s.font.version
  flags : s'.font.flags = s.font.flags
  active : s'.active = s.active
  activeSequence : s'.activeSequence = s.activeSequence
  copies : List.Forall₂ (fun q q' => q.CopyOf s.activeSequence q')
    s.font.sequences s'.font.sequences

theorem overwritten_copiedToAll (s : Session) : s.Overwritten s.copiedToAll where
  name := rfl
  version := rfl
  flags := rfl
  active := rfl
  activeSequence := s.activeSequence_copiedToAll
  copies := by
    rw [sequences_copiedToAll, List.forall₂_map_right_iff, List.forall₂_same]
    exact fun q _ => q.copyOf_setPointSize s.activeSequence

theorem copiedToAll_copiedToAll (s : Session) :
    s.copiedToAll.copiedToAll.font = s.copiedToAll.font := by
  refine Font.eq_of_fields rfl rfl rfl ?_
  rw [sequences_copiedToAll, activeSequence_copiedToAll, sequences_copiedToAll, List.map_map]
  rfl

/-- Every text looks the same in all sequences. -/
theorem texts_copiedToAll {s : Session} {q : Sequence} (mem : q ∈ s.copiedToAll.font.sequences)
    (text : List Char) :
    q.renderText text = s.copiedToAll.activeSequence.renderText text ∧
      q.measureText text = s.copiedToAll.activeSequence.measureText text := by
  rw [sequences_copiedToAll] at mem
  obtain ⟨p, -, rfl⟩ := List.mem_map.mp mem
  have copied := p.copyOf_setPointSize s.activeSequence
  rw [activeSequence_copiedToAll]
  exact ⟨copied.renderText_eq text, copied.measureText_eq text⟩

end Session

namespace Desk

theorem run_copySequenceToAll (d : Desk) :
    (run .copySequenceToAll).on d = (.ok .done, d.withSession d.session.copiedToAll) := by
  rw [run, on_onSession_of_commit (Session.on_copySequenceToAll d.session)]
  rfl

/-- Copying the active sequence over all others is never refused. Every sequence stays in
its place and keeps its point size, and has the height, the baseline and all glyphs of the
active sequence, which does not change itself. So the font is well formed, whatever heights
the sequences had, every text looks the same in all of them, and copying again changes
nothing. -/
theorem copySequenceToAll_overwrites (d : Desk) :
    ∃ d', (run .copySequenceToAll).on d = (.ok .done, d') ∧
      d.session.Overwritten d'.session ∧
      d'.session.font.WellFormed ∧
      (∃ d'', (run .copySequenceToAll).on d' = (.ok .done, d'') ∧
        d''.session.font = d'.session.font) ∧
      ∀ q ∈ d'.session.font.sequences, ∀ text,
        q.renderText text = d'.session.activeSequence.renderText text ∧
          q.measureText text = d'.session.activeSequence.measureText text := by
  refine ⟨_, run_copySequenceToAll d, d.session.overwritten_copiedToAll, Font.wellFormed _, ?_, ?_⟩
  · exact ⟨_, run_copySequenceToAll _, d.session.copiedToAll_copiedToAll⟩
  · exact fun q mem => Session.texts_copiedToAll mem

/-- A new session that got a second sequence, lower than the first and active. -/
def uneven : Desk :=
  ((run (.addSequence 5 3 9)).on { files := .empty, session := .new }).2

theorem copySequenceToAll_overwrites_uneven :
    uneven.session.font.sequences.map (fun q => (q.height, q.baseline, q.pointSize)) =
        [(16, 12, 16), (5, 3, 9)] ∧
      ∃ d', (run .copySequenceToAll).on uneven = (.ok .done, d') ∧
        d'.session.font.sequences.map (fun q => (q.height, q.baseline, q.pointSize)) =
          [(5, 3, 16), (5, 3, 9)] ∧
        ∀ q ∈ d'.session.font.sequences, ∀ text,
          q.renderText text = uneven.session.activeSequence.renderText text := by
  obtain ⟨d', ran, overwritten, -, -, alike⟩ := uneven.copySequenceToAll_overwrites
  refine ⟨rfl, d', ran, ?_, ?_⟩
  · rw [run_copySequenceToAll] at ran
    cases ran
    rfl
  · intro q mem text
    rw [← overwritten.activeSequence]
    exact (alike q mem text).1

end Desk

end BitmapFont
