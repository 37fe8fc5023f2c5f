import BitmapFont.Proofs.Edit.Chains
import BitmapFont.Proofs.Text.Measuring
import Mathlib.Algebra.Order.BigOperators.Group.List
import Mathlib.Data.List.Forall2

/-!
Wider spaces.

Widening the spaces of a font goes through all its sequences, and each of them may get
another glyph. `Sequence.SpaceWidened` says what becomes of one sequence. Main facts:

* `Sequence.SpaceWidened.width_space`: the width of the space is the greater of the old
  and the asked one;
* `Sequence.SpaceWidened.measureText_le`: no text gets narrower;
* `Desk.fixSpaceWidth_widens`: what becomes of all sequences of a session.
-/

namespace BitmapFont

namespace Sequence

/-- What becomes of a sequence whose space has to have a width. -/
structure SpaceWidened (q : Sequence) (minWidth : UInt8) (q' : Sequence) : Prop
    extends q.SameMetrics q' where
  narrow : (q.glyph spaceCodepoint).width < minWidth →
    (q'.glyph spaceCodepoint).width = minWidth ∧ (q'.glyph spaceCodepoint).height = q.height ∧
      ∀ x y, (q'.glyph spaceCodepoint).pixel x y = false
  wide : ¬ (q.glyph spaceCodepoint).width < minWidth →
    q'.glyph spaceCodepoint = q.glyph spaceCodepoint
  others : ∀ c, c ≠ spaceCodepoint → q'.glyph c = q.glyph c

section
variable {q q' : Sequence} {minWidth : UInt8}

theorem SpaceWidened.width_space (widened : q.SpaceWidened minWidth q') :
    (q'.glyph spaceCodepoint).width.toNat =
      max (q.glyph spaceCodepoint).width.toNat minWidth.toNat := by
  by_cases narrow : (q.glyph spaceCodepoint).width < minWidth
  · rw [(widened.narrow narrow).1]
    rw [UInt8.lt_iff_toNat_lt] at narrow
    omega
  · rw [widened.wide narrow]
    rw [UInt8.lt_iff_toNat_lt] at narrow
    omega

theorem SpaceWidened.width_le (widened : q.SpaceWidened minWidth q') (c : UInt8) :
    (q.glyph c).width.toNat ≤ (q'.glyph c).width.toNat := by
  by_cases space : c = spaceCodepoint
  · rw [space, widened.width_space]
    exact Nat.le_max_left _ _
  · rw [widened.others c space]

/-- A text is no narrower where no glyph is. -/
theorem measureText_le_of_width_le (wider : ∀ c, (q.glyph c).width.toNat ≤ (q'.glyph c).width.toNat)
    (text : List Char) : q.measureText text ≤ q'.measureText text := by
  rw [measureText_eq_sum, measureText_eq_sum]
  exact List.sum_le_sum fun c _ => Nat.succ_le_succ (wider c)

theorem SpaceWidened.measureText_le (widened : q.SpaceWidened minWidth q') (text : List Char) :
    q.measureText text ≤ q'.measureText text :=
  measureText_le_of_width_le widened.width_le text

end

end Sequence

namespace Session

variable {minWidth : UInt8}

theorem spaceWidened_widened (pos : 0 < minWidth.toNat) (q : Sequence) :
    q.SpaceWidened minWidth (widened minWidth q) := by
  by_cases narrow : (q.glyph spaceCodepoint).width < minWidth
  · have stored := q.glyph_withGlyph spaceCodepoint (.blank spaceCodepoint minWidth q.height)
      (Glyph.blank_height spaceCodepoint minWidth q.height_pos)
    rw [widened, if_pos narrow]
    refine ⟨⟨rfl, rfl, rfl⟩, ?_, fun wide => absurd narrow wide, ?_⟩
    · intro _
      rw [stored, if_pos rfl]
      exact ⟨atLeastOne_of_pos pos, atLeastOne_of_pos q.height_pos, Glyph.pixel_blank _ _ _⟩
    · intro c other
      rw [stored, if_neg other]
  · rw [widened, if_neg narrow]
    exact ⟨⟨rfl, rfl, rfl⟩, fun other => absurd other narrow, fun _ => rfl, fun _ _ => rfl⟩

/-- A space that is wide enough stays as it is. -/
theorem widened_of_le {q : Sequence} (wide : minWidth ≤ (q.glyph spaceCodepoint).width) :
    widened minWidth q = q := by
  rw [widened, if_neg (UInt8.not_lt.mpr wide)]

/-- What becomes of a session when its spaces have to have a width. -/
structure SpacesWidened (s : Session) (minWidth : UInt8) (s' : Session) : Prop where
  name : s'.font.name = s.font.name
  version : s'.font.version = s.font.version
  flags : s'.font.flags = s.font.flags
  active : s'.active = s.active
  sequences : List.Forall₂ (fun q q' => q.SpaceWidened minWidth q')
    s.font.sequences s'.font.sequences

theorem sequences_committed_mapping (s : Session) (description : String)
    (f : Sequence → Sequence) :
    (s.committed description (s.mapping fun _ => f)).font.sequences = s.font.sequences.map f :=
  List.ext_getElem (by simp [committed, mapping]) (by simp [committed, mapping])

theorem spacesWidened_committed (s : Session) (pos : 0 < minWidth.toNat) (description : String) :
    s.SpacesWidened minWidth
      (s.committed description (s.mapping fun _ => widened minWidth)) where
  name := rfl
  version := rfl
  flags := rfl
  active := rfl
  sequences := by
    rw [sequences_committed_mapping, List.forall₂_map_right_iff, List.forall₂_same]
    exact fun q _ => spaceWidened_widened pos q

end Session

namespace Desk

variable {d d' : Desk} {minWidth : UInt8}

theorem run_fixSpaceWidth (d : Desk) (pos : 0 < minWidth.toNat) :
    (run (.fixSpaceWidth minWidth)).on d =
      (.ok (.number (d.session.font.sequences.countP fun q =>
          (q.glyph spaceCodepoint).width < minWidth)),
        d.withSession (d.session.committed "Fix space width"
          (d.session.mapping fun _ => Session.widened minWidth))) := by
  have commits := Session.on_fixSpaceWidth d.session (toNat_pos_iff.mp pos)
  rw [run, on_onSession_of_commit commits]
  rfl

/-- Where all spaces are wide enough, there is nothing to widen. -/
theorem run_fixSpaceWidth_of_le (pos : 0 < minWidth.toNat)
    (wide : ∀ q ∈ d.session.font.sequences, minWidth ≤ (q.glyph spaceCodepoint).width) :
    ∃ d', (run (.fixSpaceWidth minWidth)).on d = (.ok (.number 0), d') ∧
      d'.session.font = d.session.font := by
  have none : d.session.font.sequences.countP
      (fun q => (q.glyph spaceCodepoint).width < minWidth) = 0 := by
    rw [List.countP_eq_zero]
    intro q mem
    simpa using wide q mem
  refine ⟨_, by rw [run_fixSpaceWidth d pos, none], ?_⟩
  refine Font.eq_of_fields rfl rfl rfl ?_
  rw [withSession, Session.sequences_committed_mapping]
  exact (List.map_congr_left fun q mem => Session.widened_of_le (wide q mem)).trans
    (List.map_id _)

/-- All spaces that are too narrow are replaced by empty ones of the width asked for, and
their number is answered. No other glyph changes, and nothing else of any sequence. So
every space is as wide as it was and as it has to be, no text gets narrower in any
sequence, and asking again for the same or a smaller width changes nothing. -/
theorem fixSpaceWidth_widens (d : Desk) (minWidth : UInt8) (pos : 1 ≤ minWidth.toNat) :
    ∃ d', (run (.fixSpaceWidth minWidth)).on d =
        (.ok (.number (d.session.font.sequences.countP fun q =>
          (q.glyph spaceCodepoint).width < minWidth)), d') ∧
      d.session.SpacesWidened minWidth d'.session ∧
      List.Forall₂ (fun q q' : Sequence =>
          (q'.glyph spaceCodepoint).width.toNat =
            max (q.glyph spaceCodepoint).width.toNat minWidth.toNat ∧
          ∀ text, q.measureText text ≤ q'.measureText text)
        d.session.font.sequences d'.session.font.sequences ∧
      ∀ width : UInt8, 1 ≤ width.toNat → width ≤ minWidth →
        ∃ d'', (run (.fixSpaceWidth width)).on d' = (.ok (.number 0), d'') ∧
          d''.session.font = d'.session.font := by
  have widened := d.session.spacesWidened_committed pos "Fix space width"
  refine ⟨_, run_fixSpaceWidth d pos, widened, ?_, ?_⟩
  · exact widened.sequences.imp fun q q' widened => ⟨widened.width_space, widened.measureText_le⟩
  · intro width posWidth le
    refine run_fixSpaceWidth_of_le posWidth ?_
    intro q' mem
    rw [withSession, Session.sequences_committed_mapping] at mem
    obtain ⟨q, -, rfl⟩ := List.mem_map.mp mem
    have asked := (Session.spaceWidened_widened pos q).width_space
    rw [UInt8.le_iff_toNat_le] at le ⊢
    omega

/-- Two sequences whose spaces are 8 columns wide. -/
theorem fixSpaceWidth_widens_imported :
    1 ≤ (9 : UInt8).toNat ∧ ∃ d' d'', (run (.fixSpaceWidth 9)).on imported = (.ok (.number 2), d') ∧
      (∃ first rest, d'.session.font.sequences = first :: rest ∧
        (first.glyph spaceCodepoint).width.toNat = 9 ∧
        (first.glyph spaceCodepoint).pixel 8 15 = false) ∧
      (run (.fixSpaceWidth 5)).on d' = (.ok (.number 0), d'') ∧
      d''.session.font = d'.session.font := by
  have sequences : imported.session.font.sequences =
      [Font.initialSequence, Font.initialSequence] := rfl
  have width : (Font.initialSequence.glyph spaceCodepoint).width = 8 := by
    rw [Font.initialSequence, Sequence.glyph_blank]
    rfl
  have narrow : (Font.initialSequence.glyph spaceCodepoint).width < 9 := by
    rw [width]
    decide
  have counted : imported.session.font.sequences.countP
      (fun q => (q.glyph spaceCodepoint).width < 9) = 2 := by
    rw [sequences]
    simp [narrow]
  obtain ⟨d', ran, widened, -, again⟩ := fixSpaceWidth_widens imported 9 (by decide)
  obtain ⟨d'', ranAgain, same⟩ := again 5 (by decide) (by decide)
  have changed := widened.sequences
  rw [sequences] at changed
  obtain ⟨first, rest, firstWidened, -, found⟩ := List.forall₂_cons_left_iff.mp changed
  obtain ⟨wide, -, clear⟩ := firstWidened.narrow narrow
  refine ⟨by decide, d', d'', ?_, ⟨first, rest, found, ?_, clear 8 15⟩, ranAgain, same⟩
  · rw [ran, counted]
  · rw [wide]
    rfl

end Desk

end BitmapFont
