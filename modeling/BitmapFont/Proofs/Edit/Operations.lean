import BitmapFont.Edit.Session
import BitmapFont.Proofs.Edit.History

/-!
What each operation does to a session.

A recorded operation takes its snapshot before it writes, and some write through
functions that could fail. The lemmas `on_…` say that none is left half done: each
operation is the commit of an edit that is computed from the untouched session
(`Session.commit`), so a failure comes before the first write, and a success takes
one snapshot, of the font as it was. Undoing and redoing need a sound history for
that (`Session.on_undo`, `Session.on_redo`).
-/

namespace BitmapFont

/-- What a recorded operation writes. -/
structure Edit where
  sequences : List Sequence
  active : Nat
  active_lt : active < sequences.length

namespace Session

variable {α : Type}

/-! ### Edits -/

/-- Another active sequence. -/
def replaceActive (s : Session) (sequence : Sequence) : Edit where
  sequences := s.font.sequences.set s.active sequence
  active := s.active
  active_lt := by
    rw [List.length_set]
    exact s.active_lt

/-- New sequences, the first of which becomes active. -/
def appending (s : Session) (first : Sequence) (rest : List Sequence) : Edit where
  sequences := s.font.sequences ++ first :: rest
  active := s.font.sequenceCount
  active_lt := by
    rw [List.length_append, List.length_cons]
    exact Nat.lt_add_of_pos_right (Nat.succ_pos _)

/-- The image of every sequence under a function of its index. -/
def mapping (s : Session) (f : Nat → Sequence → Sequence) : Edit where
  sequences := s.font.sequences.mapIdx f
  active := s.active
  active_lt := by
    rw [List.length_mapIdx]
    exact s.active_lt

/-- The sequences of another font. -/
def adopting (s : Session) (font : Font) : Edit where
  sequences := font.sequences
  active := (s.withFont font).active
  active_lt := (s.withFont font).active_lt

/-- The session after a snapshot and an edit. -/
def committed (s : Session) (description : String) (edit : Edit) : Session :=
  { s.recorded description with
    font := { s.font with
      sequences := edit.sequences
      nonempty := List.ne_nil_of_length_pos (Nat.zero_lt_of_lt edit.active_lt) }
    active := edit.active
    active_lt := edit.active_lt }

/-- All of an edit or, if it could not be computed, nothing. -/
def commit (s : Session) (description : String) :
    Except FontError (α × Edit) → Except FontError α × Session
  | .error cause => (.error cause, s)
  | .ok (answer, edit) => (.ok answer, s.committed description edit)

/-! ### Glyphs of the active sequence -/

theorem on_transform (s : Session) (range : CodepointRange) (t : Batch) :
    (transform range t).on s =
      s.commit t.description
        ((t.sequence range s.activeSequence).map fun q => ((), s.replaceActive q)) := by
  simp only [transform, Change.on_bind, Change.on_get, Change.on_lift]
  cases t.sequence range s.activeSequence with
  | error cause => rfl
  | ok updated => rfl

/-- The active sequence with the glyph of one codepoint replaced by its image. -/
def changedGlyph (s : Session) (codepoint : UInt8) (change : Glyph → Except FontError Glyph) :
    Except FontError Sequence := do
  s.activeSequence.setGlyph codepoint (← change (s.glyph codepoint))

theorem on_changeGlyph (s : Session) (description : String) (codepoint : UInt8)
    (change : Glyph → Except FontError Glyph) :
    (changeGlyph description codepoint change).on s =
      s.commit description
        ((s.changedGlyph codepoint change).map fun q => ((), s.replaceActive q)) := by
  simp only [changeGlyph, changedGlyph, glyph, Change.on_bind, Change.on_get, Change.on_lift]
  cases change (s.activeSequence.glyph codepoint) with
  | error cause => rfl
  | ok g =>
      simp only [bind, Except.bind]
      cases s.activeSequence.setGlyph codepoint g with
      | error cause => rfl
      | ok updated => rfl

section Pixels
variable {s : Session} {codepoint : UInt8} {x y : Int}

theorem on_setPixel_of_none (outside : position? (s.glyph codepoint) x y = none) (value : Bool) :
    (setPixel codepoint x y value).on s = (.ok (), s) := by
  simp [setPixel, Change.on_bind, outside]

theorem on_setPixel_of_some {column row : Nat}
    (inside : position? (s.glyph codepoint) x y = some (column, row)) (value : Bool) :
    (setPixel codepoint x y value).on s =
      s.commit "Edit pixel"
        ((s.changedGlyph codepoint fun g => .ok (g.setPixel column row value)).map
          fun q => ((), s.replaceActive q)) := by
  simp only [setPixel, Change.on_bind, Change.on_get, inside]
  exact on_changeGlyph ..

theorem on_togglePixel_of_none (outside : position? (s.glyph codepoint) x y = none) :
    (togglePixel codepoint x y).on s = (.ok (), s) := by
  simp [togglePixel, Change.on_bind, outside]

/-- Toggling takes its only snapshot through setting. -/
theorem on_togglePixel_of_some {column row : Nat}
    (inside : position? (s.glyph codepoint) x y = some (column, row)) :
    (togglePixel codepoint x y).on s =
      (setPixel codepoint x y !((s.glyph codepoint).pixel column row)).on s := by
  simp only [togglePixel, Change.on_bind, Change.on_get, inside]

end Pixels

theorem on_cloneGlyph (s : Session) (source target : UInt8) :
    (cloneGlyph source target).on s =
      s.commit "Clone glyph"
        ((s.changedGlyph target fun _ => .ok ((s.glyph source).withCodepoint target)).map
          fun q => ((), s.replaceActive q)) := by
  simp only [cloneGlyph, Change.on_bind, Change.on_get]
  exact on_changeGlyph ..

/-! ### Sequences -/

theorem foldl_push (font : Font) (rest : List Sequence) :
    rest.foldl Font.push font =
      { font with
        sequences := font.sequences ++ rest
        nonempty := List.append_ne_nil_of_left_ne_nil font.nonempty rest } := by
  induction rest generalizing font with
  | nil => simp
  | cons q rest ih => simp [ih, Font.push]

theorem on_append (s : Session) (description : String) (first : Sequence)
    (rest : List Sequence) :
    (record description >>= fun _ => append first rest).on s =
      s.commit description (.ok (s.font.sequenceCount, s.appending first rest)) := by
  simp [record, recorded, append, Change.on_bind, commit, committed, appending, foldl_push,
    Font.push, Except.map, Font.sequenceCount]

theorem on_addSequence (s : Session) (height baseline pointSize : UInt8) :
    (addSequence height baseline pointSize).on s =
      s.commit "Add sequence"
        ((Sequence.empty height baseline pointSize).map
          fun q => (s.font.sequenceCount, s.appending q [])) := by
  simp only [addSequence]
  rw [Change.on_bind, Change.on_lift]
  cases Sequence.empty height baseline pointSize with
  | error cause => rfl
  | ok q => exact on_append s "Add sequence" q []

theorem on_importSequence (s : Session) (q : Sequence) :
    (importSequence q).on s =
      s.commit "Import sequence" (.ok (s.font.sequenceCount, s.appending q [])) :=
  on_append s "Import sequence" q []

theorem on_importSequences_nil (s : Session) :
    (importSequences []).on s = (.error (.argument .nothingToImport), s) := rfl

theorem on_importSequences_cons (s : Session) (first : Sequence) (rest : List Sequence) :
    (importSequences (first :: rest)).on s =
      s.commit "Import sequences" (.ok (s.font.sequenceCount, s.appending first rest)) :=
  on_append s "Import sequences" first rest

theorem on_removeSequence (s : Session) (index : Nat) :
    (removeSequence index).on s =
      s.commit "Remove sequence"
        ((s.font.removeSequence index).map fun removed => ((), s.adopting removed.1)) := by
  simp only [removeSequence, Change.on_bind, Change.on_get]
  -- The operation checks what the removal from the font checks again after the snapshot.
  by_cases beyond : s.font.sequenceCount ≤ index
  · rw [if_pos beyond, Font.removeSequence_of_le beyond]
    rfl
  · have inside : index < s.font.sequenceCount := Nat.not_le.mp beyond
    rw [if_neg beyond]
    by_cases single : s.font.sequenceCount = 1
    · rw [if_pos single, Font.removeSequence_of_single inside single]
      rfl
    · obtain ⟨nonempty, ok⟩ := Font.exists_removeSequence inside single
      rw [if_neg single]
      simp only [record, Change.on_bind, Change.on_modify, Change.on_get, Change.on_lift,
        recorded_font, ok]
      rfl

/-- Changes that fail for no sequence change every sequence. -/
theorem on_eachSequence {c : Nat → Change Sequence α} {answer : Nat → Sequence → α}
    {result : Nat → Sequence → Sequence}
    (ok : ∀ i q, (c i).on q = (.ok (answer i q), result i q)) (s : Session) :
    (eachSequence c).on s =
      (.ok (s.font.sequences.mapIdx answer),
        s.withSequences (s.font.sequences.mapIdx result) List.length_mapIdx) := by
  have done := Change.eachFrom_of_ok ok 0 s.font.sequences
  simp only [Nat.zero_add] at done
  change ((Change.eachFrom c 0 s.font.sequences).1, s.withSequences _ _) = _
  simp only [done]

theorem on_copySequenceToAll (s : Session) :
    copySequenceToAll.on s =
      s.commit "Copy sequence to all"
        (.ok ((), s.mapping fun i q =>
          if i = s.active then q else q.copyGlyphsFrom s.activeSequence)) := by
  have each : ∀ i (q : Sequence),
      Change.on (if i = s.active then pure () else modify (·.copyGlyphsFrom s.activeSequence)) q =
        (.ok (), if i = s.active then q else q.copyGlyphsFrom s.activeSequence) := by
    intro i q
    split
    · rfl
    · rfl
  simp only [copySequenceToAll, record, Change.on_bind, Change.on_get, Change.on_modify,
    on_eachSequence each]
  rfl

theorem on_setBaseline (s : Session) (baseline : UInt8) :
    (setBaseline baseline).on s =
      s.commit "Set baseline"
        ((s.activeSequence.setBaseline baseline).map fun q => ((), s.replaceActive q)) := by
  simp only [setBaseline, Change.on_bind, Change.on_get]
  by_cases low : s.activeSequence.height.toNat ≤ baseline.toNat
  · rw [if_pos low, Sequence.setBaseline_of_le low]
    rfl
  · have ok := Sequence.setBaseline_of_lt (Nat.not_le.mp low)
    rw [if_neg low]
    simp only [record, Change.on_bind, Change.on_modify, Change.on_get, Change.on_lift,
      recorded_activeSequence, ok]
    rfl

theorem on_setPointSize {s : Session} {pointSize : UInt8} (pos : pointSize ≠ 0) :
    (setPointSize pointSize).on s =
      s.commit "Set point size"
        (.ok ((), s.replaceActive (s.activeSequence.setPointSize pointSize))) := by
  unfold setPointSize
  rw [if_neg pos]
  rfl

theorem on_setPointSize_zero (s : Session) :
    (setPointSize 0).on s = (.error (.argument .zeroPointSize), s) := rfl

/-- A sequence with its space replaced by an empty one if it is too narrow. -/
def widened (minWidth : UInt8) (q : Sequence) : Sequence :=
  if (q.glyph spaceCodepoint).width < minWidth then
    q.withGlyph spaceCodepoint (.blank spaceCodepoint minWidth q.height)
      (Glyph.blank_height spaceCodepoint minWidth q.height_pos)
  else q

theorem on_widenSpace (minWidth : UInt8) (q : Sequence) :
    (widenSpace minWidth).on q =
      (.ok (decide ((q.glyph spaceCodepoint).width < minWidth)), widened minWidth q) := by
  -- An empty glyph of the height of the sequence always fits.
  have fits := Glyph.blank_height spaceCodepoint minWidth q.height_pos
  have ok : q.modifyGlyph spaceCodepoint
      (fun space => .blank spaceCodepoint minWidth space.height) =
      .ok (q.withGlyph spaceCodepoint (.blank spaceCodepoint minWidth q.height) fits) := by
    simp only [Sequence.modifyGlyph, Sequence.glyph_height]
    exact dif_pos fits
  simp only [widenSpace, widened, Change.on_bind, Change.on_get]
  by_cases narrow : (q.glyph spaceCodepoint).width < minWidth
  · simp only [if_pos narrow, decide_eq_true narrow, Change.on_bind, Change.on_lift, ok]
    rfl
  · simp only [if_neg narrow, decide_eq_false narrow]
    rfl

theorem countP_mapIdx (p : Sequence → Bool) (sequences : List Sequence) :
    (sequences.mapIdx fun _ => p).countP id = sequences.countP p := by
  induction sequences with
  | nil => rfl
  | cons q rest ih => rw [List.mapIdx_cons, List.countP_cons, List.countP_cons, ih, id]

theorem on_fixSpaceWidth (s : Session) {minWidth : UInt8} (pos : minWidth ≠ 0) :
    (fixSpaceWidth minWidth).on s =
      s.commit "Fix space width"
        (.ok (s.font.sequences.countP fun q => (q.glyph spaceCodepoint).width < minWidth,
          s.mapping fun _ => widened minWidth)) := by
  have count :=
    countP_mapIdx (fun q => (q.glyph spaceCodepoint).width < minWidth) s.font.sequences
  unfold fixSpaceWidth
  rw [if_neg pos]
  simp only [record, Change.on_bind, Change.on_modify, Change.on_pure, recorded_font,
    on_eachSequence fun _ => on_widenSpace minWidth, count]
  rfl

theorem on_fixSpaceWidth_zero (s : Session) :
    (fixSpaceWidth 0).on s = (.error (.argument .zeroWidth), s) := rfl

/-! ### Undo and redo -/

theorem withFont_font (s : Session) : s.withFont s.font = s := by
  have inside : clampActive s.active s.font.sequenceCount = s.active := by
    have := s.active_lt
    unfold clampActive Font.sequenceCount
    omega
  cases s
  simp only [withFont, inside]

/-- The session after the history put other sequences in place. -/
def restored (s : Session) (history : History) (sequences : List Sequence)
    (nonempty : sequences ≠ []) : Session :=
  { s.withFont { s.font with sequences, nonempty } with history, dirty := true }

section
variable {s : Session} {entry : HistoryEntry} {older : List HistoryEntry}

theorem on_undo_nil (none : s.history.undoEntries = []) : undo.on s = (.ok .empty, s) := by
  simp [undo, restoring, Change.on_bind, Change.on_inside, History.on_undo_nil s.font none,
    withFont_font]

theorem on_undo (sound : s.history.Sound) (top : s.history.undoEntries = entry :: older) :
    undo.on s =
      (.ok .applied, s.restored (s.history.undone s.font entry older) entry.sequences
        (sound.top_undo_restorable top)) := by
  simp only [undo, restoring, Change.on_bind, Change.on_inside, sound.on_undo s.font top]
  rfl

theorem on_redo_nil (none : s.history.redoEntries = []) : redo.on s = (.ok .empty, s) := by
  simp [redo, restoring, Change.on_bind, Change.on_inside, History.on_redo_nil s.font none,
    withFont_font]

theorem on_redo (sound : s.history.Sound) (top : s.history.redoEntries = entry :: older) :
    redo.on s =
      (.ok .applied, s.restored (s.history.redone s.font entry older) entry.sequences
        (sound.top_redo_restorable top)) := by
  simp only [redo, restoring, Change.on_bind, Change.on_inside, sound.on_redo s.font top]
  rfl

end

end Session

end BitmapFont
