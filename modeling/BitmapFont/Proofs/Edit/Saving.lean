import BitmapFont.Proofs.Edit.Reachable
import BitmapFont.Proofs.Stream.RoundTrip

/-!
What a clean session says about its file.

`Desk.Since mark d` says that `mark` was the font of the session when it was last
constructed, loaded or saved with success, and that `d` results from calls after
that, none of which declared the session clean by hand. Other programs leave the
files alone. Main facts:

* `Desk.Since.call`: every call but `markClean` leads on to such a desk;
* `Desk.dirty_or_aside`: a command that neither saves nor loads makes the session
  dirty, or else leaves the font and the file as they are;
* `Desk.Since.clean`: the invariant, by one case for each way to go on;
* `Desk.Since.clean_font_stored`: the font of a clean session is the mark, and its
  file decodes to that font.
-/

namespace BitmapFont

/-! ### Fonts in files -/

namespace Font

theorem load_eq_ok_iff {files : FileStore} {path : String} {f : Font} :
    load files path = .ok f ↔
      ∃ stream, files.read path = .ok stream ∧ decode stream = .ok f := by
  unfold load ofContent ofStream
  cases files.read path with
  | error cause => simp
  | ok stream =>
      simp only [Except.ok.injEq, exists_eq_left']
      cases decode stream with
      | error cause => simp
      | ok font => simp

theorem save_eq_ok_iff {f : Font} {files files' : FileStore} {path : String} :
    f.save files path = .ok files' ↔
      ∃ stream, f.encode = .ok stream ∧ files.write path stream = .ok files' := by
  unfold save
  cases f.encode with
  | error cause => simp [bind, Except.bind]
  | ok stream =>
      simp only [bind, Except.bind, Except.ok.injEq, exists_eq_left']
      cases files.write path stream with
      | error cause => simp [Except.mapError]
      | ok written => simp [Except.mapError]

theorem save_of_encode_error {f : Font} {cause : FontError} (failed : f.encode = .error cause)
    (files : FileStore) (path : String) : f.save files path = .error cause := by
  unfold save
  rw [failed]
  rfl

end Font

theorem Session.load_eq_ok_iff {files : FileStore} {path : String} {s : Session} :
    load files path = .ok s ↔
      ∃ font, Font.load files path = .ok font ∧ { ofFont font with filePath := some path } = s := by
  unfold load
  cases Font.load files path with
  | error cause => simp [bind, Except.bind]
  | ok font => simp [bind, Except.bind, pure, Except.pure]

/-! ### Commands -/

/-- Whether a command writes the font to a file. -/
def Command.Saves : Command → Prop
  | save | saveAs .. => True
  | _ => False

/-- Whether a command, if it succeeds, settles what the session and its file have in
common. -/
def Command.Settles : Command → Prop
  | save | saveAs .. | load .. => True
  | _ => False

namespace Desk

/-- The file at a path holds the font of the session, up to the version. -/
def FontStored (d : Desk) (path : String) : Prop :=
  ∃ stream stored, d.files.read path = .ok stream ∧ Font.decode stream = .ok stored ∧
    { stored with version := d.session.font.version } = d.session.font

/-- What is kept of a desk when its font, its files, and the path and the dirty flag of
its session are. -/
structure SameFile (d d' : Desk) : Prop where
  files : d'.files = d.files
  font : d'.session.font = d.session.font
  filePath : d'.session.filePath = d.session.filePath
  dirty : d'.session.dirty = d.session.dirty

theorem SameFile.refl (d : Desk) : d.SameFile d := ⟨rfl, rfl, rfl, rfl⟩

theorem Recording.dirty_or_aside {d : Desk} {outcome : Except FontError Reply × Desk}
    (recorded : d.Recording outcome) :
    outcome.2.session.dirty = true ∨ d.SameFile outcome.2 := by
  cases recorded with
  | refused cause => exact .inr (.refl d)
  | committed reply description edit => exact .inl rfl

/-- What does not settle the session makes it dirty or leaves the font alone. -/
theorem dirty_or_aside {d : Desk} {command : Command} (sound : d.session.Sound)
    (unclean : command ≠ .markClean) (unsettled : ¬ command.Settles) :
    ((run command).on d).2.session.dirty = true ∨ d.SameFile ((run command).on d).2 := by
  by_cases records : command.Records d.session
  · exact (recording_run records).dirty_or_aside
  · cases command with
    | setPixel codepoint x y value =>
        rw [run_setPixel_outside records value]
        exact .inr (.refl d)
    | togglePixel codepoint x y =>
        rw [run_togglePixel_outside records]
        exact .inr (.refl d)
    | setActiveSequence index =>
        rw [run_setActiveSequence]
        split
        · exact .inr ⟨rfl, rfl, rfl, rfl⟩
        · exact .inr (.refl d)
    | setFontName name =>
        rw [run_setFontName]
        cases FontName.ofText name with
        | error cause => exact .inr (.refl d)
        | ok name => exact .inl rfl
    | markClean => exact absurd rfl unclean
    | undo =>
        cases top : d.session.history.undoEntries with
        | nil =>
            rw [run_undo_nil top]
            exact .inr (.refl d)
        | cons entry older =>
            rw [run_undo_cons sound.history top]
            exact .inl rfl
    | redo =>
        cases top : d.session.history.redoEntries with
        | nil =>
            rw [run_redo_nil top]
            exact .inr (.refl d)
        | cons entry older =>
            rw [run_redo_cons sound.history top]
            exact .inl rfl
    | save | saveAs | load => exact absurd trivial unsettled
    | _ => exact absurd trivial records

/-- The session is clean, and the file at its path holds its font. -/
structure SettledAt (path : String) (d : Desk) : Prop where
  filePath : d.session.filePath = some path
  dirty : d.session.dirty = false
  stored : d.FontStored path

/-- What a save leaves behind. -/
structure SavedAs (d : Desk) (path : String) (d' : Desk) : Prop where
  session : d'.session = { d.session with filePath := some path, dirty := false }
  stored : d'.FontStored path

theorem SavedAs.settledAt {d d' : Desk} {path : String} (saved : d.SavedAs path d') :
    SettledAt path d' where
  filePath := by rw [saved.session]
  dirty := by rw [saved.session]
  stored := saved.stored

theorem savedAs_saveAs {d d' : Desk} {path : String} {reply : Reply}
    (result : (run (.saveAs path)).on d = (.ok reply, d')) : d.SavedAs path d' := by
  rw [run_saveAs] at result
  cases saved : d.session.font.save d.files path with
  | error cause =>
      rw [saved] at result
      cases result
  | ok files =>
      rw [saved] at result
      cases result
      obtain ⟨stream, encoded, written⟩ := Font.save_eq_ok_iff.mp saved
      have decoded := Font.decode_of_encode encoded
      exact ⟨rfl, stream, _, FileStore.read_write written, decoded, rfl⟩

theorem savedAs_save {d d' : Desk} {reply : Reply}
    (result : (run .save).on d = (.ok reply, d')) :
    ∃ path, d.session.filePath = some path ∧ d.SavedAs path d' := by
  rw [run_save] at result
  cases file : d.session.filePath with
  | none =>
      rw [file] at result
      cases result
  | some path =>
      rw [file] at result
      exact ⟨path, rfl, savedAs_saveAs result⟩

theorem settledAt_load {files : FileStore} {path : String} {session : Session}
    (loaded : Session.load files path = .ok session) : SettledAt path { files, session } := by
  obtain ⟨font, read, rfl⟩ := Session.load_eq_ok_iff.mp loaded
  obtain ⟨stream, content, decoded⟩ := Font.load_eq_ok_iff.mp read
  exact ⟨rfl, rfl, stream, font, content, decoded, rfl⟩

/-- After a command that settled the session, the session is clean and its file holds
its font. -/
theorem settledAt_of_settles {d d' : Desk} {command : Command} {reply : Reply}
    (settles : command.Settles) (result : (run command).on d = (.ok reply, d')) :
    ∃ path, SettledAt path d' := by
  cases command with
  | save =>
      obtain ⟨path, -, saved⟩ := savedAs_save result
      exact ⟨path, saved.settledAt⟩
  | saveAs path => exact ⟨path, (savedAs_saveAs result).settledAt⟩
  | load path =>
      rw [run_load] at result
      cases loaded : Session.load d.files path with
      | error cause =>
          rw [loaded] at result
          cases result
      | ok session =>
          rw [loaded] at result
          cases result
          exact ⟨path, settledAt_load loaded⟩
  | _ => exact absurd settles id

/-! ### Runs -/

/-- `mark` was the font of the session when it was last constructed, loaded or saved
with success, and the desk results from calls after that. -/
inductive Since : Font → Desk → Prop
  | new (files : FileStore) : Since .untitled { files, session := .new }
  | ofFont (files : FileStore) (font : Font) : Since font { files, session := .ofFont font }
  | load {files : FileStore} {path : String} {session : Session} :
      Session.load files path = .ok session → Since session.font { files, session }
  | settled {mark : Font} {d d' : Desk} {command : Command} {reply : Reply} :
      Since mark d → command.Settles → (run command).on d = (.ok reply, d') →
      Since d'.session.font d'
  | kept {mark : Font} {d : Desk} {command : Command} :
      Since mark d → command ≠ .markClean →
      (command.Settles → ∃ cause, ((run command).on d).1 = .error cause) →
      Since mark ((run command).on d).2

/-- Every call but `markClean` goes on from a marked desk. -/
theorem Since.call {mark : Font} {d : Desk} (since : Since mark d) {command : Command}
    (unclean : command ≠ .markClean) : ∃ mark', Since mark' ((run command).on d).2 := by
  by_cases settles : command.Settles
  · cases result : (run command).on d with
    | mk answer d' =>
        cases answer with
        | error cause =>
            have failed : ((run command).on d).1 = .error cause := by rw [result]
            have kept := since.kept unclean fun _ => ⟨cause, failed⟩
            rw [result] at kept
            exact ⟨mark, kept⟩
        | ok reply => exact ⟨d'.session.font, since.settled settles result⟩
  · exact ⟨mark, since.kept unclean fun done => absurd done settles⟩

/-- The invariant of a marked desk. -/
structure Clean (mark : Font) (d : Desk) : Prop where
  sound : d.session.Sound
  font : d.session.dirty = false → d.session.font = mark
  stored : d.session.dirty = false → ∀ path, d.session.filePath = some path → d.FontStored path

theorem clean_ofFont (files : FileStore) (font : Font) :
    Clean font { files, session := .ofFont font } where
  sound := Session.sound_ofFont font
  font := fun _ => rfl
  stored := by
    intro clean path none
    cases none

theorem SettledAt.clean {d : Desk} {path : String} (settled : SettledAt path d)
    (sound : d.session.Sound) : Clean d.session.font d where
  sound := sound
  font := fun _ => rfl
  stored := by
    intro clean path' file
    rw [settled.filePath] at file
    cases file
    exact settled.stored

section
variable {mark : Font} {d d' : Desk}

theorem Clean.of_dirty (sound : d.session.Sound) (dirty : d.session.dirty = true) :
    Clean mark d where
  sound := sound
  font := by
    intro clean
    rw [dirty] at clean
    cases clean
  stored := by
    intro clean
    rw [dirty] at clean
    cases clean

theorem Clean.sameFile (clean : Clean mark d) (same : d.SameFile d') (sound : d'.session.Sound) :
    Clean mark d' where
  sound := sound
  font := by
    rw [same.dirty, same.font]
    exact clean.font
  stored := by
    unfold FontStored
    rw [same.dirty, same.filePath, same.font, same.files]
    exact clean.stored

/-- A run of calls keeps the invariant. -/
theorem Since.clean (since : Since mark d) : Clean mark d := by
  induction since with
  | new files => exact clean_ofFont files .untitled
  | ofFont files font => exact clean_ofFont files font
  | load loaded => exact (settledAt_load loaded).clean (Session.sound_load loaded)
  | @settled mark d d' command reply since settles result ih =>
      have call := call_run ih.sound.history command
      rw [result] at call
      obtain ⟨path, settled⟩ := settledAt_of_settles settles result
      exact settled.clean (call.sound ih.sound)
  | @kept mark d command since unclean unsettled ih =>
      have call := call_run ih.sound.history command
      have sound := call.sound ih.sound
      by_cases settles : command.Settles
      · -- A command that would have settled the session failed, so nothing has changed.
        obtain ⟨cause, failed⟩ := unsettled settles
        have same : ((run command).on d).2 = d := by
          apply Call.eq_of_error
          rw [← failed]
          exact call
        rw [same]
        exact ih
      · rcases dirty_or_aside ih.sound unclean settles with dirty | same
        · exact .of_dirty sound dirty
        · exact ih.sameFile same sound

/-- The font of a clean session is what it was when it was last constructed, loaded or
saved, and its file decodes to that font up to the version. Loading and saving leave a
clean session, and a font that cannot be encoded is not saved. -/
theorem Since.clean_font_stored (since : Since mark d) :
    (d.session.dirty = false → d.session.font = mark ∧
      ∀ path, d.session.filePath = some path → d.FontStored path) ∧
    (∀ command reply d', command.Settles → (run command).on d = (.ok reply, d') →
      d'.session.dirty = false ∧ (∃ path, d'.session.filePath = some path ∧ d'.FontStored path) ∧
      (command.Saves → d'.session.font = d.session.font)) ∧
    ∀ cause, d.session.font.encode = .error cause →
      (∀ path, (run (.saveAs path)).on d = (.error cause, d)) ∧
      ∀ path, d.session.filePath = some path → (run .save).on d = (.error cause, d) := by
  refine ⟨?_, ?_, ?_⟩
  · intro clean
    exact ⟨since.clean.font clean, since.clean.stored clean⟩
  · intro command reply d' settles result
    obtain ⟨path, settled⟩ := settledAt_of_settles settles result
    refine ⟨settled.dirty, ⟨path, settled.filePath, settled.stored⟩, ?_⟩
    intro saves
    cases command with
    | save =>
        obtain ⟨path, -, saved⟩ := savedAs_save result
        rw [saved.session]
    | saveAs path => rw [(savedAs_saveAs result).session]
    | _ => exact absurd saves id
  · intro cause failed
    have refused : ∀ path, (run (.saveAs path)).on d = (.error cause, d) := by
      intro path
      rw [run_saveAs, Font.save_of_encode_error failed]
    refine ⟨refused, ?_⟩
    intro path file
    rw [run_save, file]
    exact refused path

end

/-- A new session under the name `Tiny`. -/
def renamed : Desk :=
  ((run (.setFontName "Tiny")).on { files := .empty, session := .new }).2

/-- A font with more sequences than the header can count. -/
def crowdedFont : Font where
  name := .cut "Crowd"
  version := .legacy
  flags := 0
  sequences := List.replicate 65536 Font.initialSequence
  nonempty := List.cons_ne_nil _ _

theorem clean_font_stored_renamed :
    (renamed.session.dirty = true ∧
      ∃ d', (run (.saveAs "tiny.bmf")).on renamed = (.ok .done, d') ∧
        Since renamed.session.font d' ∧ d'.session.dirty = false ∧
        d'.session.filePath = some "tiny.bmf" ∧ d'.FontStored "tiny.bmf") ∧
    (run (.saveAs "tiny.bmf")).on { files := .empty, session := .ofFont crowdedFont } =
      (.error (.argument (.tooManySequences 65536)),
        { files := .empty, session := .ofFont crowdedFont }) := by
  have named : Since .untitled renamed := .kept (.new .empty) Command.noConfusion False.elim
  have one : renamed.session.font.sequences.length ≤ FontStream.maxWord := by decide
  have encoded := Font.encodeAs_eq_ok .current renamed.session.font one
  have written : ∀ bytes, renamed.files.write "tiny.bmf" bytes =
      .ok (renamed.files.put { directory := .working, name := "tiny.bmf" } bytes) := fun _ => rfl
  have result := run_saveAs renamed "tiny.bmf"
  rw [Font.save_eq_ok_iff.mpr ⟨_, encoded, written _⟩] at result
  have settles : (Command.saveAs "tiny.bmf").Settles := trivial
  have since := named.settled settles result
  have crowded : Font.encode crowdedFont = .error (.argument (.tooManySequences 65536)) := by
    have count : crowdedFont.sequences.length = 65536 := List.length_replicate
    unfold Font.encode Font.encodeAs
    rw [count]
    rfl
  refine ⟨⟨rfl, _, result, since, rfl, rfl, ?_⟩, ?_⟩
  · exact (since.clean_font_stored.1 rfl).2 _ rfl
  · exact ((Since.ofFont .empty crowdedFont).clean_font_stored.2.2 _ crowded).1 "tiny.bmf"

end Desk

end BitmapFont
