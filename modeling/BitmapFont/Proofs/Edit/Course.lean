import BitmapFont.Proofs.Edit.Timeline

/-!
Walking along the timeline.

A `Desk.Run` records changes, between which the font may be renamed and saved,
another sequence selected, and calls refused. A `Desk.Course` lets undoing, redoing
and further runs follow each other in any order and says which timeline results.
Main results:

* `Course.onLine`: after every course the session stands for that timeline, by one
  lemma for each way of going on;
* `Course.undos` and `Course.redos`: undoing and redoing reach every state that the
  line still has, and no other;
* `Desk.undo_redo_timeline`: what this means for a session that only recorded
  changes before.
-/

namespace BitmapFont

/-- Whether a command, wherever it succeeds, leaves the sequences and the history
alone. -/
def Command.Aside (s : Session) : Command → Prop
  | setPixel codepoint x y _ | togglePixel codepoint x y => ¬ s.HasPixel codepoint x y
  | setActiveSequence .. | setFontName .. | markClean | save | saveAs .. => True
  | _ => False

namespace Desk

/-- Calls that lead from `start` to a desk and record changes on the way. None of
them undoes, redoes or loads. -/
inductive Run (start : Desk) : List Milestone → Desk → Prop
  | start : Run start [] start
  | recorded {changes : List Milestone} {d d' : Desk} {command : Command}
      {description : String} {reply : Reply} :
      Run start changes d → command.Records d.session →
      command.description? = some description → (run command).on d = (.ok reply, d') →
      Run start (changes ++ [⟨description, d'.session.font.sequences⟩]) d'
  | refused {changes : List Milestone} {d d' : Desk} {command : Command} {cause : FontError} :
      Run start changes d → (run command).on d = (.error cause, d') → Run start changes d'
  | aside {changes : List Milestone} {d : Desk} {command : Command} :
      Run start changes d → command.Aside d.session → Run start changes ((run command).on d).2
  /-- Another program changes the files. -/
  | elsewhere {changes : List Milestone} {d : Desk} (files : FileStore) :
      Run start changes d → Run start changes { d with files }

/-- `n` calls of a command in a row, each of which restores a state. -/
inductive Repeats (command : Command) (d : Desk) : Nat → Desk → Prop
  | none : Repeats command d 0 d
  | more {n : Nat} {mid d' : Desk} :
      Repeats command d n mid → (run command).on mid = (.ok (.outcome .applied), d') →
      Repeats command d (n + 1) d'

/-- Runs, undoing and redoing in any order, with the timeline that results. -/
inductive Course (start : Desk) : Timeline → Desk → Prop
  | start : Course start (.start start.session.font.sequences) start
  | run {t : Timeline} {d d' : Desk} {changes : List Milestone} :
      Course start t d → d.Run changes d' → Course start (changes.foldl .record t) d'
  | undone {t : Timeline} {d d' : Desk} :
      Course start t d → (run .undo).on d = (.ok (.outcome .applied), d') →
      Course start (t.back 1) d'
  | redone {t : Timeline} {d d' : Desk} :
      Course start t d → (run .redo).on d = (.ok (.outcome .applied), d') →
      Course start (t.forward 1) d'

/-! ### Calls that stand aside -/

/-- What is kept of a desk when its sequences and its history are. -/
structure SameLine (d d' : Desk) : Prop where
  history : d'.session.history = d.session.history
  sequences : d'.session.font.sequences = d.session.font.sequences

theorem sameLine_saveAs (d : Desk) (path : String) :
    d.SameLine ((run (.saveAs path)).on d).2 := by
  rw [run_saveAs]
  cases d.session.font.save d.files path with
  | error cause => exact ⟨rfl, rfl⟩
  | ok files => exact ⟨rfl, rfl⟩

theorem sameLine_of_aside {d : Desk} {command : Command} (aside : command.Aside d.session) :
    d.SameLine ((run command).on d).2 := by
  cases command with
  | setPixel codepoint x y value =>
      rw [run_setPixel_outside aside value]
      exact ⟨rfl, rfl⟩
  | togglePixel codepoint x y =>
      rw [run_togglePixel_outside aside]
      exact ⟨rfl, rfl⟩
  | setActiveSequence index =>
      rw [run_setActiveSequence]
      split
      · exact ⟨rfl, rfl⟩
      · exact ⟨rfl, rfl⟩
  | setFontName name =>
      rw [run_setFontName]
      cases FontName.ofText name with
      | error cause => exact ⟨rfl, rfl⟩
      | ok name => exact ⟨rfl, rfl⟩
  | markClean => exact ⟨rfl, rfl⟩
  | saveAs path => exact sameLine_saveAs d path
  | save =>
      rw [run_save]
      cases d.session.filePath with
      | none => exact ⟨rfl, rfl⟩
      | some path => exact sameLine_saveAs d path
  | _ => exact absurd aside id

/-! ### What a session stands for -/

/-- What a course needs of a desk to go on. -/
structure OnLine (t : Timeline) (d : Desk) : Prop where
  sound : d.session.Sound
  tracks : ∃ past, t.Tracks past d.session

section
variable {t : Timeline} {d d' : Desk}

theorem OnLine.shows (line : OnLine t d) : t.Shows d.session := by
  obtain ⟨past, tracks⟩ := line.tracks
  exact tracks.shows

theorem OnLine.of_fresh (fresh : d.session.history = .new) :
    OnLine (.start d.session.font.sequences) d where
  sound := by
    constructor
    · rw [fresh]
      exact History.sound_withCapacity _
    · rw [fresh]
      rfl
  tracks := ⟨[], .of_fresh fresh⟩

theorem OnLine.sameLine (line : OnLine t d) (same : d.SameLine d') : OnLine t d' where
  sound := by
    constructor
    · rw [same.history]
      exact line.sound.history
    · rw [same.history]
      exact line.sound.capacity
  tracks := by
    obtain ⟨past, tracks⟩ := line.tracks
    exact ⟨past, tracks.congr same.history same.sequences⟩

theorem OnLine.recorded (line : OnLine t d) {command : Command} {description : String}
    {reply : Reply} (records : command.Records d.session)
    (named : command.description? = some description)
    (result : (run command).on d = (.ok reply, d')) :
    OnLine (t.record ⟨description, d'.session.font.sequences⟩) d' where
  sound := by
    have call := call_run line.sound.history command
    rw [result] at call
    exact call.sound line.sound
  tracks := by
    obtain ⟨past, tracks⟩ := line.tracks
    obtain ⟨called, planned, same, ran⟩ := run_eq_commit records
    rw [ran] at result
    rw [named] at same
    cases same
    rcases planned with cause | ⟨answer, edit⟩
    · cases result
    · cases result
      exact ⟨_, tracks.committed line.sound description edit⟩

/-- A run draws its changes on the line. -/
theorem OnLine.run (line : OnLine t d) {changes : List Milestone} (ran : d.Run changes d') :
    OnLine (changes.foldl .record t) d' := by
  induction ran with
  | start => exact line
  | recorded ran records named result ih =>
      rw [List.foldl_append]
      exact ih.recorded records named result
  | @refused changes mid d' command cause ran result ih =>
      have call := call_run ih.sound.history command
      rw [result] at call
      rw [call.eq_of_error]
      exact ih
  | aside ran aside ih => exact ih.sameLine (sameLine_of_aside aside)
  | elsewhere files ran ih => exact ih.sameLine ⟨rfl, rfl⟩

/-- Undoing goes back by one state if the line has one, and else does nothing. -/
theorem OnLine.undo (line : OnLine t d) :
    (t.depth = 0 ∧ (Desk.run .undo).on d = (.ok (.outcome .empty), d)) ∨
      (0 < t.depth ∧ ∃ d', (Desk.run .undo).on d = (.ok (.outcome .applied), d') ∧
        OnLine (t.back 1) d') := by
  have length := line.shows.undo_length
  cases top : d.session.history.undoEntries with
  | nil =>
      rw [top] at length
      exact .inl ⟨length.symm, run_undo_nil top⟩
  | cons entry older =>
      rw [top] at length
      obtain ⟨past, tracks⟩ := line.tracks
      have applied := run_undo_cons line.sound.history top
      refine .inr ⟨length ▸ Nat.succ_pos _, _, applied, ?_, ?_⟩
      · exact ⟨line.sound.history.undone _ top, line.sound.capacity⟩
      · exact tracks.undone top _

/-- Redoing goes on by one state if the line has one, and else does nothing. -/
theorem OnLine.redo (line : OnLine t d) :
    (t.ahead = 0 ∧ (Desk.run .redo).on d = (.ok (.outcome .empty), d)) ∨
      (0 < t.ahead ∧ ∃ d', (Desk.run .redo).on d = (.ok (.outcome .applied), d') ∧
        OnLine (t.forward 1) d') := by
  have length := line.shows.redo_length
  cases top : d.session.history.redoEntries with
  | nil =>
      rw [top] at length
      exact .inl ⟨length.symm, run_redo_nil top⟩
  | cons entry older =>
      rw [top] at length
      obtain ⟨past, tracks⟩ := line.tracks
      have applied := run_redo_cons line.sound.history top
      refine .inr ⟨length ▸ Nat.succ_pos _, _, applied, ?_, ?_⟩
      · exact ⟨line.sound.history.redone _ top, line.sound.capacity⟩
      · exact tracks.redone top _

end

/-! ### Courses -/

namespace Course

variable {start : Desk} {t : Timeline} {d : Desk}

/-- After every course that starts with a fresh history, the session stands for the
timeline of the course. -/
theorem onLine (fresh : start.session.history = .new) (course : Course start t d) :
    OnLine t d := by
  induction course with
  | start => exact .of_fresh fresh
  | run course ran ih => exact ih.run ran
  | undone course result ih =>
      rcases ih.undo with ⟨-, empty⟩ | ⟨-, d', applied, line⟩
      · rw [empty] at result
        cases result
      · rw [applied] at result
        cases result
        exact line
  | redone course result ih =>
      rcases ih.redo with ⟨-, empty⟩ | ⟨-, d', applied, line⟩
      · rw [empty] at result
        cases result
      · rw [applied] at result
        cases result
        exact line

/-- As many changes can be undone in a row as the line is deep. -/
theorem undos (fresh : start.session.history = .new) (course : Course start t d) {j : Nat}
    (deep : j ≤ t.depth) : ∃ u, d.Repeats .undo j u ∧ Course start (t.back j) u := by
  induction j with
  | zero => exact ⟨d, .none, course⟩
  | succ j ih =>
      obtain ⟨mid, repeats, reached⟩ := ih (Nat.le_of_succ_le deep)
      rcases (reached.onLine fresh).undo with ⟨bottom, -⟩ | ⟨-, u, applied, -⟩
      · exact absurd bottom (Nat.sub_ne_zero_of_lt deep)
      · refine ⟨u, .more repeats applied, ?_⟩
        rw [← Timeline.back_back]
        exact reached.undone applied

/-- As many changes can be redone in a row as the line has ahead. -/
theorem redos (fresh : start.session.history = .new) (course : Course start t d) {i : Nat}
    (long : i ≤ t.ahead) : ∃ v, d.Repeats .redo i v ∧ Course start (t.forward i) v := by
  induction i with
  | zero => exact ⟨d, .none, course⟩
  | succ i ih =>
      obtain ⟨mid, repeats, reached⟩ := ih (Nat.le_of_succ_le long)
      rcases (reached.onLine fresh).redo with ⟨top, -⟩ | ⟨-, v, applied, -⟩
      · rw [Timeline.ahead_forward] at top
        exact absurd top (Nat.sub_ne_zero_of_lt long)
      · refine ⟨v, .more repeats applied, ?_⟩
        rw [← Timeline.forward_forward]
        exact reached.redone applied

end Course

end Desk

/-! ### The header of the font -/

/-- Two fonts that differ in their sequences only. -/
structure Font.SameHeader (f g : Font) : Prop where
  name : g.name = f.name
  version : g.version = f.version
  flags : g.flags = f.flags

theorem History.sameHeader_undo (h : History) (font : Font) :
    font.SameHeader (undo.on (h, font)).2.2 := by
  cases top : h.undoEntries with
  | nil =>
      rw [on_undo_nil font top]
      exact ⟨rfl, rfl, rfl⟩
  | cons entry older =>
      -- An entry without sequences would be refused, and the font stay as it is.
      by_cases empty : entry.sequences = []
      · simp only [undo, Change.on_bind, Change.on_get, Change.on_set, Change.on_lift, top,
          Font.restoreSequences, dif_pos empty]
        exact ⟨rfl, rfl, rfl⟩
      · simp only [undo, Change.on_bind, Change.on_get, Change.on_set, Change.on_lift, top,
          Font.restoreSequences, dif_neg empty]
        exact ⟨rfl, rfl, rfl⟩

theorem History.sameHeader_redo (h : History) (font : Font) :
    font.SameHeader (redo.on (h, font)).2.2 := by
  rw [on_redo_eq_swapped]
  exact sameHeader_undo h.swapped font

/-- Whatever a request does to the font, the session takes over. -/
theorem Session.font_restoring (request : Change (History × Font) HistoryOutcome) (s : Session) :
    ((restoring request).on s).2.font = (request.on (s.history, s.font)).2.2 := by
  simp only [restoring, Change.on_bind, Change.on_inside]
  rcases request.on (s.history, s.font) with ⟨cause | outcome, history, font⟩
  · rfl
  · cases outcome with
    | applied => rfl
    | empty => rfl

namespace Desk

theorem sameHeader_undo (d : Desk) :
    d.session.font.SameHeader ((run .undo).on d).2.session.font := by
  rw [run, on_onSession]
  change d.session.font.SameHeader (Session.undo.on d.session).2.font
  rw [Session.undo, Session.font_restoring]
  exact History.sameHeader_undo d.session.history d.session.font

theorem sameHeader_redo (d : Desk) :
    d.session.font.SameHeader ((run .redo).on d).2.session.font := by
  rw [run, on_onSession]
  change d.session.font.SameHeader (Session.redo.on d.session).2.font
  rw [Session.redo, Session.font_restoring]
  exact History.sameHeader_redo d.session.history d.session.font

/-! ### After a run -/

/-- The state that a run starts with and the states that its changes lead to. -/
def statesOf (start : Desk) (changes : List Milestone) : List (List Sequence) :=
  start.session.font.sequences :: changes.map (·.sequences)

/-- What a desk shows after a run and the undoing of its last `j` changes. -/
structure Rewound (start : Desk) (changes : List Milestone) (j : Nat) (u : Desk) : Prop where
  sequences : (start.statesOf changes)[changes.length - j]? = some u.session.font.sequences
  redo_length : u.session.history.redoEntries.length = j
  undo_description : u.session.history.undoDescription? =
    if j < min changes.length 50 then
      (changes[changes.length - j - 1]?).map (·.description)
    else none
  undo_end : j = min changes.length 50 → (run .undo).on u = (.ok (.outcome .empty), u)
  redone : ∀ i ≤ j, ∃ v, u.Repeats .redo i v ∧
    (start.statesOf changes)[changes.length - j + i]? = some v.session.font.sequences ∧
    (i = j → (run .redo).on v = (.ok (.outcome .empty), v))
  /-- A new change takes the place of what was undone, and the line goes on from it. -/
  replaced : ∀ command description reply u', command.Records u.session →
    command.description? = some description → (run command).on u = (.ok reply, u') →
    u'.session.history.redoEntries = [] ∧
      Course start
        { states := (start.statesOf changes).take (changes.length - j + 1) ++
            [u'.session.font.sequences]
          descriptions := (changes.map (·.description)).take (changes.length - j) ++
            [description]
          position := changes.length - j + 1
          depth := min (min changes.length 50 - j + 1) 50 } u'

section
variable {start d u : Desk} {changes : List Milestone}

/-- The course of a run that nothing precedes. -/
theorem Run.course (ran : start.Run changes d) :
    Course start
      { states := start.statesOf changes
        descriptions := changes.map (·.description)
        position := changes.length
        depth := min changes.length 50 } d := by
  have course := Course.start.run ran
  rw [Timeline.foldl_record_start] at course
  exact course

theorem Course.rewound (fresh : start.session.history = .new) {j : Nat}
    (deep : j ≤ min changes.length 50)
    (course : Course start
      { states := start.statesOf changes
        descriptions := changes.map (·.description)
        position := changes.length - j
        depth := min changes.length 50 - j } u) : Rewound start changes j u := by
  have line := course.onLine fresh
  have ahead : changes.length - (changes.length - j) = j := by omega
  constructor
  · exact line.shows.sequences
  · rw [line.shows.redo_length, Timeline.ahead, List.length_map, ahead]
  · rw [line.shows.undo_description]
    by_cases left : j < min changes.length 50
    · rw [if_neg (Nat.sub_ne_zero_of_lt left), if_pos left, List.getElem?_map]
    · rw [if_pos (Nat.sub_eq_zero_of_le (Nat.not_lt.mp left)), if_neg left]
  · intro bottom
    rcases line.undo with ⟨-, empty⟩ | ⟨pos, -⟩
    · exact empty
    · exact absurd pos (by simp [bottom])
  · intro i short
    have long : i ≤ (changes.map (·.description)).length - (changes.length - j) := by
      rw [List.length_map, ahead]
      exact short
    obtain ⟨v, repeats, reached⟩ := course.redos fresh long
    refine ⟨v, repeats, (reached.onLine fresh).shows.sequences, ?_⟩
    rintro rfl
    rcases (reached.onLine fresh).redo with ⟨-, empty⟩ | ⟨pos, -⟩
    · exact empty
    · rw [Timeline.ahead_forward, Timeline.ahead, List.length_map, ahead] at pos
      exact absurd pos (by simp)
  · intro command description reply u' records named result
    have next := course.run (.recorded .start records named result)
    refine ⟨List.length_eq_zero_iff.mp ?_, next⟩
    rw [(next.onLine fresh).shows.redo_length]
    exact Timeline.ahead_record ..

end

/-- The sequences of a session whose history is fresh stay on a line. After a run of
`n` changes the last `min n 50` can be undone one by one, and what was undone can be
redone; each state and description is that of the line. In any order of runs, undoing
and redoing the session shows the line, and the font keeps its header. -/
theorem undo_redo_timeline {start : Desk} (fresh : start.session.history = .new) :
    (∀ changes d, start.Run changes d →
      d.session.history.undoEntries.length = min changes.length 50 ∧
      ∀ j ≤ min changes.length 50, ∃ u, d.Repeats .undo j u ∧ Rewound start changes j u) ∧
    (∀ t d, Course start t d → t.Shows d.session ∧
      ((t.depth = 0 ∧ (run .undo).on d = (.ok (.outcome .empty), d)) ∨
        (0 < t.depth ∧ ∃ d', (run .undo).on d = (.ok (.outcome .applied), d') ∧
          Course start (t.back 1) d')) ∧
      ((t.ahead = 0 ∧ (run .redo).on d = (.ok (.outcome .empty), d)) ∨
        (0 < t.ahead ∧ ∃ d', (run .redo).on d = (.ok (.outcome .applied), d') ∧
          Course start (t.forward 1) d'))) ∧
    ∀ d : Desk, d.session.font.SameHeader ((run .undo).on d).2.session.font ∧
      d.session.font.SameHeader ((run .redo).on d).2.session.font := by
  refine ⟨?_, ?_, ?_⟩
  · intro changes d ran
    have course := ran.course
    refine ⟨(course.onLine fresh).shows.undo_length, ?_⟩
    intro j deep
    obtain ⟨u, repeats, reached⟩ := course.undos fresh deep
    exact ⟨u, repeats, reached.rewound fresh deep⟩
  · intro t d course
    have line := course.onLine fresh
    refine ⟨line.shows, ?_, ?_⟩
    · rcases line.undo with bottom | ⟨pos, d', applied, -⟩
      · exact .inl bottom
      · exact .inr ⟨pos, d', applied, course.undone applied⟩
    · rcases line.redo with top | ⟨pos, d', applied, -⟩
      · exact .inl top
      · exact .inr ⟨pos, d', applied, course.redone applied⟩
  · intro d
    exact ⟨sameHeader_undo d, sameHeader_redo d⟩

/-- A new session that has imported a sequence twice and selected another in between. -/
def importedTwice : Desk :=
  ((run (.importSequence Font.initialSequence)).on
    ((run (.setActiveSequence 0)).on imported).2).2

theorem undo_redo_timeline_imported_twice :
    Run { files := .empty, session := .new }
      [⟨"Import sequence", List.replicate 2 Font.initialSequence⟩,
        ⟨"Import sequence", List.replicate 3 Font.initialSequence⟩] importedTwice ∧
    importedTwice.session.history.undoEntries.length = 2 ∧
    ∃ u, importedTwice.Repeats .undo 2 u ∧
      u.session.font.sequences = [Font.initialSequence] ∧
      u.session.history.undoDescription? = none ∧
      (run .undo).on u = (.ok (.outcome .empty), u) := by
  have imports (s : Session) : (Command.importSequence Font.initialSequence).Records s := trivial
  have selects (s : Session) : (Command.setActiveSequence 0).Aside s := trivial
  have first : Run { files := .empty, session := .new } _ imported :=
    .recorded .start (imports _) rfl rfl
  have second : Run { files := .empty, session := .new } _ importedTwice :=
    .recorded (first.aside (selects _)) (imports _) rfl rfl
  obtain ⟨depth, walk⟩ := (undo_redo_timeline rfl).1 _ _ second
  obtain ⟨u, repeats, rewound⟩ := walk 2 (by decide)
  exact ⟨second, depth, u, repeats, (Option.some.inj rewound.sequences).symm,
    rewound.undo_description, rewound.undo_end rfl⟩

end Desk

end BitmapFont
