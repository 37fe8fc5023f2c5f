import BitmapFont.Edit.Command
import BitmapFont.Proofs.Edit.Operations

/-!
Everything that a call can do.

`Desk.Call` lists what a command can answer together with the desk that it leaves
behind, and `Desk.call_run` shows that every command does one of these things. The
recorded commands (`Command.Records`) do one of two: they are refused and change
nothing, or they commit one edit (`Desk.recording_run`). The only answer of a
`Desk.Call` that is an error leaves the desk as it was.
-/

namespace BitmapFont

/-- Whether a codepoint of the active sequence has a pixel at a position. -/
def Session.HasPixel (s : Session) (codepoint : UInt8) (x y : Int) : Prop :=
  0 ≤ x ∧ x < (s.glyph codepoint).width.toNat ∧ 0 ≤ y ∧ y < (s.glyph codepoint).height.toNat

theorem Session.position?_eq_none_iff {s : Session} {codepoint : UInt8} {x y : Int} :
    position? (s.glyph codepoint) x y = none ↔ ¬ s.HasPixel codepoint x y := by
  unfold position? HasPixel Glyph.InBounds
  split
  · simp only [reduceCtorEq, false_iff, Classical.not_not]
    omega
  · simp only [true_iff]
    omega

/-- Whether a command records a change of the session if it succeeds. -/
def Command.Records (s : Session) : Command → Prop
  | transform .. | clearGlyph .. | cloneGlyph .. | resizeGlyphWidth .. => True
  | setPixel codepoint x y _ | togglePixel codepoint x y => s.HasPixel codepoint x y
  | addSequence .. | importSequence .. | importSequences .. | removeSequence .. => True
  | copySequenceToAll | setBaseline .. | setPointSize .. | fixSpaceWidth .. => True
  | setActiveSequence .. | setFontName .. | markClean | undo | redo => False
  | save | saveAs .. | load .. => False

/-- What a recorded command calls its change. -/
def Command.description? : Command → Option String
  | transform _ batch => some batch.description
  | setPixel .. | togglePixel .. => some "Edit pixel"
  | clearGlyph .. => some "Clear glyph"
  | cloneGlyph .. => some "Clone glyph"
  | resizeGlyphWidth .. => some "Resize glyph"
  | addSequence .. => some "Add sequence"
  | importSequence .. => some "Import sequence"
  | importSequences .. => some "Import sequences"
  | removeSequence .. => some "Remove sequence"
  | copySequenceToAll => some "Copy sequence to all"
  | setBaseline .. => some "Set baseline"
  | setPointSize .. => some "Set point size"
  | fixSpaceWidth .. => some "Fix space width"
  | setActiveSequence .. | setFontName .. | markClean | undo | redo => none
  | save | saveAs .. | load .. => none

namespace Desk

/-- The desk with another session. -/
def withSession (d : Desk) (session : Session) : Desk :=
  { d with session }

/-- The outcomes of a recorded command. -/
inductive Recording (d : Desk) : Except FontError Reply × Desk → Prop
  | refused (cause : FontError) : Recording d (.error cause, d)
  | committed (reply : Reply) (description : String) (edit : Edit) :
      Recording d (.ok reply, d.withSession (d.session.committed description edit))

/-- The outcomes of a command. -/
inductive Call (d : Desk) : Except FontError Reply × Desk → Prop
  | recording {outcome : Except FontError Reply × Desk} : d.Recording outcome → Call d outcome
  | idle (reply : Reply) : Call d (.ok reply, d)
  | selected {index : Nat} (inside : index < d.session.font.sequences.length) :
      Call d (.ok .done, d.withSession { d.session with active := index, active_lt := inside })
  | renamed (name : FontName) :
      Call d (.ok .done,
        d.withSession { d.session with font := { d.session.font with name }, dirty := true })
  | cleaned : Call d (.ok .done, d.withSession { d.session with dirty := false })
  | saved {files : FileStore} {path : String} :
      d.session.font.save d.files path = .ok files →
      Call d (.ok .done,
        { files, session := { d.session with filePath := some path, dirty := false } })
  | loaded {session : Session} {path : String} :
      Session.load d.files path = .ok session → Call d (.ok .done, d.withSession session)
  | undone {entry : HistoryEntry} {older : List HistoryEntry}
      (top : d.session.history.undoEntries = entry :: older) (restorable : entry.sequences ≠ []) :
      Call d (.ok (.outcome .applied),
        d.withSession (d.session.restored (d.session.history.undone d.session.font entry older)
          entry.sequences restorable))
  | redone {entry : HistoryEntry} {older : List HistoryEntry}
      (top : d.session.history.redoEntries = entry :: older) (restorable : entry.sequences ≠ []) :
      Call d (.ok (.outcome .applied),
        d.withSession (d.session.restored (d.session.history.redone d.session.font entry older)
          entry.sequences restorable))

/-! ### Recorded commands -/

/-- The desk after a recorded command that planned an edit, or failed to. -/
def commit (d : Desk) (description : String) :
    Except FontError (Reply × Edit) → Except FontError Reply × Desk
  | .error cause => (.error cause, d)
  | .ok (reply, edit) => (.ok reply, d.withSession (d.session.committed description edit))

section
variable {d : Desk} {α : Type} {reply : α → Reply} {c : Change Session α}

theorem on_onSession (d : Desk) (reply : α → Reply) (c : Change Session α) :
    (onSession reply c).on d =
      ((c.on d.session).1.map reply, d.withSession (c.on d.session).2) := by
  simp [onSession, Change.on_inside, withSession]

theorem on_onSession_of_commit {description : String} {planned : Except FontError (α × Edit)}
    (commits : c.on d.session = d.session.commit description planned) :
    (onSession reply c).on d =
      d.commit description (planned.map fun p => (reply p.1, p.2)) := by
  rw [on_onSession, commits]
  rcases planned with cause | ⟨answer, edit⟩
  · rfl
  · rfl

theorem on_onSession_of_error {cause : FontError}
    (refused : c.on d.session = (.error cause, d.session)) (description : String) :
    (onSession reply c).on d = d.commit description (.error cause) := by
  rw [on_onSession, refused]
  rfl

end

/-- A recorded command commits one edit under its description, unless it is
refused. -/
theorem run_eq_commit {d : Desk} {command : Command} (records : command.Records d.session) :
    ∃ description planned, command.description? = some description ∧
      (run command).on d = d.commit description planned := by
  cases command with
  | transform range batch =>
      exact ⟨_, _, rfl, on_onSession_of_commit (Session.on_transform d.session range batch)⟩
  | setPixel codepoint x y value =>
      cases position : Session.position? (d.session.glyph codepoint) x y with
      | none => exact absurd records (Session.position?_eq_none_iff.mp position)
      | some inside =>
          exact ⟨_, _, rfl, on_onSession_of_commit (Session.on_setPixel_of_some position value)⟩
  | togglePixel codepoint x y =>
      cases position : Session.position? (d.session.glyph codepoint) x y with
      | none => exact absurd records (Session.position?_eq_none_iff.mp position)
      | some inside =>
          have toggled := Session.on_togglePixel_of_some position
          rw [Session.on_setPixel_of_some position] at toggled
          exact ⟨_, _, rfl, on_onSession_of_commit toggled⟩
  | clearGlyph codepoint => exact ⟨_, _, rfl, on_onSession_of_commit (Session.on_changeGlyph ..)⟩
  | cloneGlyph source target =>
      exact ⟨_, _, rfl, on_onSession_of_commit (Session.on_cloneGlyph d.session source target)⟩
  | resizeGlyphWidth codepoint width =>
      exact ⟨_, _, rfl, on_onSession_of_commit (Session.on_changeGlyph ..)⟩
  | addSequence height baseline pointSize =>
      exact ⟨_, _, rfl,
        on_onSession_of_commit (Session.on_addSequence d.session height baseline pointSize)⟩
  | importSequence sequence =>
      exact ⟨_, _, rfl, on_onSession_of_commit (Session.on_importSequence d.session sequence)⟩
  | importSequences sequences =>
      cases sequences with
      | nil =>
          exact ⟨_, _, rfl, on_onSession_of_error (Session.on_importSequences_nil d.session) _⟩
      | cons first rest =>
          exact ⟨_, _, rfl,
            on_onSession_of_commit (Session.on_importSequences_cons d.session first rest)⟩
  | removeSequence index =>
      exact ⟨_, _, rfl, on_onSession_of_commit (Session.on_removeSequence d.session index)⟩
  | copySequenceToAll =>
      exact ⟨_, _, rfl, on_onSession_of_commit (Session.on_copySequenceToAll d.session)⟩
  | setBaseline baseline =>
      exact ⟨_, _, rfl, on_onSession_of_commit (Session.on_setBaseline d.session baseline)⟩
  | setPointSize pointSize =>
      by_cases zero : pointSize = 0
      · rw [zero]
        exact ⟨_, _, rfl, on_onSession_of_error (Session.on_setPointSize_zero d.session) _⟩
      · exact ⟨_, _, rfl, on_onSession_of_commit (Session.on_setPointSize zero)⟩
  | fixSpaceWidth minWidth =>
      by_cases zero : minWidth = 0
      · rw [zero]
        exact ⟨_, _, rfl, on_onSession_of_error (Session.on_fixSpaceWidth_zero d.session) _⟩
      · exact ⟨_, _, rfl, on_onSession_of_commit (Session.on_fixSpaceWidth d.session zero)⟩
  | setActiveSequence | setFontName | markClean | undo | redo | save | saveAs | load =>
      exact absurd records id

/-- A recorded command is refused or commits one edit. -/
theorem recording_run {d : Desk} {command : Command} (records : command.Records d.session) :
    d.Recording ((run command).on d) := by
  obtain ⟨description, planned, -, ran⟩ := run_eq_commit records
  rw [ran]
  rcases planned with cause | ⟨reply, edit⟩
  · exact .refused cause
  · exact .committed reply description edit

/-! ### Other commands -/

/-- A position outside the glyph is ignored. -/
theorem run_setPixel_outside {d : Desk} {codepoint : UInt8} {x y : Int}
    (outside : ¬ d.session.HasPixel codepoint x y) (value : Bool) :
    (run (.setPixel codepoint x y value)).on d = (.ok .done, d) := by
  have ignored := Session.on_setPixel_of_none (Session.position?_eq_none_iff.mpr outside) value
  rw [run, on_onSession, ignored]
  rfl

theorem run_togglePixel_outside {d : Desk} {codepoint : UInt8} {x y : Int}
    (outside : ¬ d.session.HasPixel codepoint x y) :
    (run (.togglePixel codepoint x y)).on d = (.ok .done, d) := by
  have ignored := Session.on_togglePixel_of_none (Session.position?_eq_none_iff.mpr outside)
  rw [run, on_onSession, ignored]
  rfl

theorem run_saveAs (d : Desk) (path : String) :
    (run (.saveAs path)).on d =
      match d.session.font.save d.files path with
      | .error cause => (.error cause, d)
      | .ok files =>
        (.ok .done,
          { files, session := { d.session with filePath := some path, dirty := false } }) := by
  simp only [run, Session.saveAs, Change.on_bind, Change.on_get, Change.on_lift]
  cases d.session.font.save d.files path with
  | error cause => rfl
  | ok files => rfl

theorem run_save (d : Desk) :
    (run .save).on d =
      match d.session.filePath with
      | none => (.error (.argument .noFilePath), d)
      | some path => (run (.saveAs path)).on d := by
  simp only [run, Session.save, Change.on_bind, Change.on_get, Change.on_lift]
  cases d.session.filePath with
  | none => rfl
  | some path => rfl

theorem call_saveAs (d : Desk) (path : String) : d.Call ((run (.saveAs path)).on d) := by
  rw [run_saveAs]
  cases ok : d.session.font.save d.files path with
  | error cause => exact .recording (.refused cause)
  | ok files => exact .saved ok

theorem run_setActiveSequence (d : Desk) (index : Nat) :
    (run (.setActiveSequence index)).on d =
      if inside : index < d.session.font.sequences.length then
        (.ok .done, d.withSession { d.session with active := index, active_lt := inside })
      else (.error (.argument (.sequenceIndex index d.session.font.sequences.length)), d) := by
  rw [run, on_onSession]
  simp only [Session.setActiveSequence, Change.on_bind, Change.on_get]
  split
  · rfl
  · rfl

theorem run_setFontName (d : Desk) (name : String) :
    (run (.setFontName name)).on d =
      match FontName.ofText name with
      | .error cause => (.error cause, d)
      | .ok name =>
        (.ok .done,
          d.withSession
            { d.session with font := { d.session.font with name }, dirty := true }) := by
  rw [run, on_onSession]
  simp only [Session.setFontName, Change.on_bind, Change.on_lift]
  cases FontName.ofText name with
  | error cause => rfl
  | ok name => rfl

theorem call_setActiveSequence (d : Desk) (index : Nat) :
    d.Call ((run (.setActiveSequence index)).on d) := by
  rw [run_setActiveSequence]
  split
  · rename_i inside
    exact .selected inside
  · exact .recording (.refused _)

theorem call_setFontName (d : Desk) (name : String) :
    d.Call ((run (.setFontName name)).on d) := by
  rw [run_setFontName]
  cases FontName.ofText name with
  | error cause => exact .recording (.refused cause)
  | ok name => exact .renamed name

theorem run_load (d : Desk) (path : String) :
    (run (.load path)).on d =
      match Session.load d.files path with
      | .error cause => (.error cause, d)
      | .ok session => (.ok .done, d.withSession session) := by
  simp only [run, Change.on_bind, Change.on_get, Change.on_lift]
  cases Session.load d.files path with
  | error cause => rfl
  | ok session => rfl

theorem call_load (d : Desk) (path : String) : d.Call ((run (.load path)).on d) := by
  rw [run_load]
  cases ok : Session.load d.files path with
  | error cause => exact .recording (.refused cause)
  | ok session => exact .loaded ok

section
variable {d : Desk} {entry : HistoryEntry} {older : List HistoryEntry}

theorem run_undo_nil (none : d.session.history.undoEntries = []) :
    (run .undo).on d = (.ok (.outcome .empty), d) := by
  rw [run, on_onSession, Session.on_undo_nil none]
  rfl

theorem run_undo_cons (sound : d.session.history.Sound)
    (top : d.session.history.undoEntries = entry :: older) :
    (run .undo).on d = (.ok (.outcome .applied),
      d.withSession (d.session.restored (d.session.history.undone d.session.font entry older)
        entry.sequences (sound.top_undo_restorable top))) := by
  rw [run, on_onSession, Session.on_undo sound top]
  rfl

theorem run_redo_nil (none : d.session.history.redoEntries = []) :
    (run .redo).on d = (.ok (.outcome .empty), d) := by
  rw [run, on_onSession, Session.on_redo_nil none]
  rfl

theorem run_redo_cons (sound : d.session.history.Sound)
    (top : d.session.history.redoEntries = entry :: older) :
    (run .redo).on d = (.ok (.outcome .applied),
      d.withSession (d.session.restored (d.session.history.redone d.session.font entry older)
        entry.sequences (sound.top_redo_restorable top))) := by
  rw [run, on_onSession, Session.on_redo sound top]
  rfl

end

theorem call_undo {d : Desk} (sound : d.session.history.Sound) : d.Call ((run .undo).on d) := by
  cases top : d.session.history.undoEntries with
  | nil =>
      rw [run_undo_nil top]
      exact .idle (.outcome .empty)
  | cons entry older =>
      rw [run_undo_cons sound top]
      exact .undone top (sound.top_undo_restorable top)

theorem call_redo {d : Desk} (sound : d.session.history.Sound) : d.Call ((run .redo).on d) := by
  cases top : d.session.history.redoEntries with
  | nil =>
      rw [run_redo_nil top]
      exact .idle (.outcome .empty)
  | cons entry older =>
      rw [run_redo_cons sound top]
      exact .redone top (sound.top_redo_restorable top)

/-- Every command does one of the things that a call can do. -/
theorem call_run {d : Desk} (sound : d.session.history.Sound) (command : Command) :
    d.Call ((run command).on d) := by
  by_cases records : command.Records d.session
  · exact .recording (recording_run records)
  · cases command with
    | setPixel codepoint x y value =>
        rw [run_setPixel_outside records value]
        exact .idle .done
    | togglePixel codepoint x y =>
        rw [run_togglePixel_outside records]
        exact .idle .done
    | setActiveSequence index => exact call_setActiveSequence d index
    | setFontName name => exact call_setFontName d name
    | markClean => exact .cleaned
    | undo => exact call_undo sound
    | redo => exact call_redo sound
    | save =>
        rw [run_save]
        cases d.session.filePath with
        | none => exact .recording (.refused (.argument .noFilePath))
        | some path => exact call_saveAs d path
    | saveAs path => exact call_saveAs d path
    | load path => exact call_load d path
    | _ => exact absurd trivial records

end Desk

end BitmapFont
