import BitmapFont.Proofs.Edit.Calls
import BitmapFont.Proofs.Font.WellFormed

/-!
What holds in every state that a session can reach.

`Desk.Reachable` starts from a new session, one on any font, or one on a file, and
goes on through any calls, refused ones included, while other programs may change
the files. The invariant that a run carries is `Session.Sound`; every other fact
about a single state is kept by the types. Main results:

* `Desk.Reachable.session_wellFormed`: fonts and history are well formed in every
  reachable state;
* `Desk.Reachable.call_all_or_nothing`: a refused call changes nothing, a recorded
  one takes one snapshot of the font as it was, and a pixel outside its glyph is
  ignored.
-/

namespace BitmapFont

/-! ### The invariant -/

/-- What the calls need to know about the history of a session. -/
structure Session.Sound (s : Session) : Prop where
  history : s.history.Sound
  capacity : s.history.capacity = History.defaultCapacity

theorem Session.sound_ofFont (font : Font) : (ofFont font).Sound where
  history := History.sound_withCapacity History.defaultCapacity
  capacity := rfl

theorem Session.sound_load {files : FileStore} {path : String} {session : Session}
    (loaded : load files path = .ok session) : session.Sound := by
  unfold load at loaded
  cases read : Font.load files path with
  | error cause =>
      rw [read] at loaded
      cases loaded
  | ok font =>
      rw [read] at loaded
      cases loaded
      exact ⟨(sound_ofFont font).history, (sound_ofFont font).capacity⟩

namespace Desk

/-- No outcome of a call breaks the invariant. -/
theorem Call.sound {d : Desk} {outcome : Except FontError Reply × Desk} (call : d.Call outcome)
    (sound : d.session.Sound) : outcome.2.session.Sound := by
  cases call with
  | recording recorded =>
      cases recorded with
      | refused cause => exact sound
      | committed reply description edit =>
          exact ⟨sound.history.snapshot description d.session.font, sound.capacity⟩
  | idle reply => exact sound
  | selected inside => exact ⟨sound.history, sound.capacity⟩
  | renamed name => exact ⟨sound.history, sound.capacity⟩
  | cleaned => exact ⟨sound.history, sound.capacity⟩
  | saved ok => exact ⟨sound.history, sound.capacity⟩
  | loaded ok => exact Session.sound_load ok
  | undone top restorable => exact ⟨sound.history.undone d.session.font top, sound.capacity⟩
  | redone top restorable => exact ⟨sound.history.redone d.session.font top, sound.capacity⟩

/-- The desks that a run of calls can lead to. -/
inductive Reachable : Desk → Prop
  | new (files : FileStore) : Reachable { files, session := .new }
  | ofFont (files : FileStore) (font : Font) : Reachable { files, session := .ofFont font }
  | load {files : FileStore} {path : String} {session : Session} :
      Session.load files path = .ok session → Reachable { files, session }
  | call {d : Desk} (command : Command) : Reachable d → Reachable ((run command).on d).2
  /-- Another program changes the files. -/
  | elsewhere {d : Desk} (files : FileStore) : Reachable d → Reachable { d with files }

theorem Reachable.sound {d : Desk} (reached : d.Reachable) : d.session.Sound := by
  induction reached with
  | new files => exact Session.sound_ofFont .untitled
  | ofFont files font => exact Session.sound_ofFont font
  | load loaded => exact Session.sound_load loaded
  | call command reached ih => exact (call_run ih.history command).sound ih
  | elsewhere files reached ih => exact ih

end Desk

/-! ### Well-formed states -/

structure HistoryEntry.WellFormed (entry : HistoryEntry) : Prop where
  nonempty : 1 ≤ entry.sequences.length
  sequences : ∀ q ∈ entry.sequences, q.WellFormed

structure Session.WellFormed (s : Session) : Prop where
  nonempty : 1 ≤ s.font.sequences.length
  active_lt : s.active < s.font.sequences.length
  sequences : ∀ q ∈ s.font.sequences, q.WellFormed
  undoEntries : ∀ entry ∈ s.history.undoEntries, entry.WellFormed
  redoEntries : ∀ entry ∈ s.history.redoEntries, entry.WellFormed
  name_ascii : ∀ c ∈ s.font.name.chars, 0 < c.toNat ∧ c.toNat < 128
  name_length : s.font.name.chars.length ≤ 28
  history_length : s.history.undoEntries.length + s.history.redoEntries.length ≤ 50

theorem HistoryEntry.wellFormed {entry : HistoryEntry} (restorable : entry.sequences ≠ []) :
    entry.WellFormed where
  nonempty := List.length_pos_iff.mpr restorable
  sequences := fun q _ => q.wellFormed

theorem Session.Sound.wellFormed {s : Session} (sound : s.Sound) : s.WellFormed where
  nonempty := s.font.sequenceCount_pos
  active_lt := s.active_lt
  sequences := fun q _ => q.wellFormed
  undoEntries := fun entry mem => HistoryEntry.wellFormed (sound.history.undo_restorable entry mem)
  redoEntries := fun entry mem => HistoryEntry.wellFormed (sound.history.redo_restorable entry mem)
  name_ascii := s.font.name.storable
  name_length := s.font.name.length_le
  history_length := by
    have := sound.history.length_le
    rwa [sound.capacity] at this

namespace Desk

/-- Every reachable session is well formed, its history included. -/
theorem Reachable.session_wellFormed {d : Desk} (reached : d.Reachable) : d.session.WellFormed :=
  reached.sound.wellFormed

/-- A new session that has imported a sequence. -/
def imported : Desk :=
  ((run (.importSequence Font.initialSequence)).on { files := .empty, session := .new }).2

theorem reachable_imported : imported.Reachable :=
  .call (.importSequence Font.initialSequence) (.new .empty)

theorem wellFormed_undone_import :
    ((run .undo).on imported).2.session.history.redoEntries.length = 1 ∧
      ((run .undo).on imported).2.session.WellFormed :=
  ⟨rfl, Reachable.session_wellFormed (.call .undo reachable_imported)⟩

end Desk

/-! ### Refused, recorded and ignored calls -/

/-- Whether a command addresses a pixel that its glyph does not have. -/
def Command.Misses (s : Session) : Command → Prop
  | setPixel codepoint x y _ | togglePixel codepoint x y => ¬ s.HasPixel codepoint x y
  | _ => False

/-- One snapshot of the session `s` is the only news in the history of `t`. -/
structure Session.RecordedOnce (s t : Session) : Prop where
  undoEntries : ∃ entry : HistoryEntry, entry.sequences = s.font.sequences ∧
    t.history.undoEntries =
      entry :: if s.history.undoEntries.length = 50 then s.history.undoEntries.dropLast
        else s.history.undoEntries
  redoEntries : t.history.redoEntries = []
  dirty : t.dirty = true

theorem Session.Sound.recordedOnce {s : Session} (sound : s.Sound) (description : String)
    (edit : Edit) : s.RecordedOnce (s.committed description edit) where
  undoEntries := by
    have fits : s.history.undoEntries.length ≤ s.history.capacity :=
      Nat.le_trans (Nat.le_add_right _ _) sound.history.length_le
    refine ⟨.capture description s.font, rfl, ?_⟩
    change pushBounded s.history.capacity _ _ = _
    rw [History.pushBounded_of_le _ fits, sound.capacity]
    rfl
  redoEntries := rfl
  dirty := rfl

namespace Desk

/-- A call that fails leaves everything as it was. -/
theorem Call.eq_of_error {d d' : Desk} {cause : FontError} (call : d.Call (.error cause, d')) :
    d' = d := by
  cases call with
  | recording recorded =>
      cases recorded with
      | refused => rfl

theorem Recording.recordedOnce {d d' : Desk} {reply : Reply}
    (recorded : d.Recording (.ok reply, d')) (sound : d.session.Sound) :
    d.session.RecordedOnce d'.session := by
  cases recorded with
  | committed reply description edit => exact sound.recordedOnce description edit

/-- A refused call changes nothing, a recorded one takes one snapshot, and a pixel
outside its glyph is ignored. -/
theorem Reachable.call_all_or_nothing {d : Desk} (reached : d.Reachable) (command : Command) :
    (∀ cause d', (run command).on d = (.error cause, d') → d' = d) ∧
      (command.Records d.session → ∀ reply d', (run command).on d = (.ok reply, d') →
        d.session.RecordedOnce d'.session) ∧
      (command.Misses d.session → (run command).on d = (.ok .done, d)) := by
  have sound := reached.sound
  refine ⟨?_, ?_, ?_⟩
  · intro cause d' result
    have call := call_run sound.history command
    rw [result] at call
    exact call.eq_of_error
  · intro records reply d' result
    have recorded := recording_run records
    rw [result] at recorded
    exact recorded.recordedOnce sound
  · intro misses
    cases command with
    | setPixel codepoint x y value => exact run_setPixel_outside misses value
    | togglePixel codepoint x y => exact run_togglePixel_outside misses
    | _ => exact absurd misses id

theorem all_or_nothing_imported :
    ((run (.removeSequence 2)).on imported).2 = imported ∧
      imported.session.RecordedOnce ((run (.removeSequence 1)).on imported).2.session ∧
      (run (.setPixel 65 (-1) 0 true)).on imported = (.ok .done, imported) := by
  refine ⟨?_, ?_, ?_⟩
  · exact (reachable_imported.call_all_or_nothing (.removeSequence 2)).1 _ _ rfl
  · exact (reachable_imported.call_all_or_nothing (.removeSequence 1)).2.1 trivial .done _ rfl
  · refine (reachable_imported.call_all_or_nothing (.setPixel 65 (-1) 0 true)).2.2 ?_
    intro inside
    exact absurd inside.1 (by decide)

end Desk

end BitmapFont
