import BitmapFont.Proofs.Edit.Reachable
import Mathlib.Data.List.Induction

/-!
The timeline of a session.

Seen from outside, recorded changes lead along a line of states, and undoing and
redoing move a position on it. `Timeline` is that line. The session itself keeps
only the live state and two stacks of copies: `t.Tracks past s` says that `s` stands
for `t` when the entries of all changes in effect, forgotten ones included, are
`past`. Main facts:

* `Tracks.committed`, `Tracks.undone`, `Tracks.redone`: recording, undoing and
  redoing do to the stacks what `Timeline.record`, `Timeline.back` and
  `Timeline.forward` do to the line;
* `Tracks.shows`: what can be seen of the line in a session, which is the live
  state, how far it goes to both sides, and the names of the next changes.
-/

namespace BitmapFont

/-- A recorded change: what it is called, and the sequences that it led to. -/
structure Milestone where
  description : String
  sequences : List Sequence

/-- The states that changes led through, and a position among them. -/
structure Timeline where
  /-- The first state and, after each change, the state that it led to. -/
  states : List (List Sequence)
  /-- What the changes are called. -/
  descriptions : List String
  /-- How many of the changes are in effect. -/
  position : Nat
  /-- How many of the changes in effect can be undone. -/
  depth : Nat

namespace Timeline

/-- The line of a state that nothing led to. -/
def start (sequences : List Sequence) : Timeline where
  states := [sequences]
  descriptions := []
  position := 0
  depth := 0

/-- A change takes the place of all changes that are not in effect. Of the changes
in effect the last 50 can be undone. -/
def record (t : Timeline) (change : Milestone) : Timeline where
  states := t.states.take (t.position + 1) ++ [change.sequences]
  descriptions := t.descriptions.take t.position ++ [change.description]
  position := t.position + 1
  depth := min (t.depth + 1) 50

def back (t : Timeline) (n : Nat) : Timeline :=
  { t with position := t.position - n, depth := t.depth - n }

def forward (t : Timeline) (n : Nat) : Timeline :=
  { t with position := t.position + n, depth := t.depth + n }

/-- How many changes can be redone. -/
def ahead (t : Timeline) : Nat :=
  t.descriptions.length - t.position

theorem back_back (t : Timeline) (m n : Nat) : (t.back m).back n = t.back (m + n) := by
  simp only [back, Nat.sub_sub]

theorem forward_forward (t : Timeline) (m n : Nat) :
    (t.forward m).forward n = t.forward (m + n) := by
  simp only [forward, Nat.add_assoc]

theorem ahead_forward (t : Timeline) (n : Nat) : (t.forward n).ahead = t.ahead - n := by
  simp only [ahead, forward, Nat.sub_sub]

/-- Nothing can be redone after a change. -/
theorem ahead_record (t : Timeline) (change : Milestone) : (t.record change).ahead = 0 := by
  simp only [ahead, record, List.length_append, List.length_take, List.length_singleton]
  omega

/-- Changes that follow each other from the first state on. -/
theorem foldl_record_start (sequences : List Sequence) (changes : List Milestone) :
    changes.foldl record (start sequences) =
      { states := sequences :: changes.map (·.sequences)
        descriptions := changes.map (·.description)
        position := changes.length
        depth := min changes.length 50 } := by
  induction changes using List.reverseRecOn with
  | nil => rfl
  | append_singleton changes change ih =>
      rw [List.foldl_append, ih]
      have states : (sequences :: changes.map (·.sequences)).take (changes.length + 1) =
          sequences :: changes.map (·.sequences) := List.take_of_length_le (by simp)
      have descriptions : (changes.map (·.description)).take changes.length =
          changes.map (·.description) := List.take_of_length_le (by simp)
      have depth : min (min changes.length 50 + 1) 50 = min (changes.length + 1) 50 := by omega
      simp [record, states, descriptions, depth]

/-! ### The line behind the stacks -/

/-- A session stands for a timeline. `past` holds the entry of every change in
effect, oldest first; the undo side has the last of them. -/
structure Tracks (t : Timeline) (past : List HistoryEntry) (s : Session) : Prop where
  kept : s.history.undoEntries.reverse <:+ past
  states : t.states = past.map (·.sequences) ++
    s.font.sequences :: s.history.redoEntries.map (·.sequences)
  descriptions : t.descriptions =
    past.map (·.description) ++ s.history.redoEntries.map (·.description)
  position : t.position = past.length
  depth : t.depth = s.history.undoEntries.length

/-- What can be seen of a timeline in a session. -/
structure Shows (t : Timeline) (s : Session) : Prop where
  sequences : t.states[t.position]? = some s.font.sequences
  undo_length : s.history.undoEntries.length = t.depth
  redo_length : s.history.redoEntries.length = t.ahead
  undo_description : s.history.undoDescription? =
    if t.depth = 0 then none else t.descriptions[t.position - 1]?
  redo_description : s.history.redoDescription? = t.descriptions[t.position]?

namespace Tracks

variable {t : Timeline} {past : List HistoryEntry} {s : Session}

theorem shows (tracks : t.Tracks past s) : t.Shows s where
  sequences := by
    rw [tracks.states, tracks.position, List.getElem?_append_right (by simp)]
    simp
  undo_length := tracks.depth.symm
  redo_length := by
    rw [ahead, tracks.descriptions, tracks.position]
    simp
  undo_description := by
    rw [tracks.depth, tracks.descriptions, tracks.position]
    obtain ⟨forgotten, kept⟩ := tracks.kept
    unfold History.undoDescription?
    cases top : s.history.undoEntries with
    | nil => rfl
    | cons entry older =>
        rw [top, List.reverse_cons, ← List.append_assoc] at kept
        rw [← kept, if_neg (by simp)]
        simp
  redo_description := by
    rw [tracks.descriptions, tracks.position, List.getElem?_append_right (by simp)]
    simp [History.redoDescription?, List.head?_eq_getElem?]

/-- A fresh session stands for the line of its first state. -/
theorem of_fresh (fresh : s.history = .new) : (start s.font.sequences).Tracks [] s where
  kept := by
    rw [fresh]
    exact List.suffix_rfl
  states := by
    rw [fresh]
    rfl
  descriptions := by
    rw [fresh]
    rfl
  position := rfl
  depth := by
    rw [fresh]
    rfl

/-- The line is one of the font's sequences and the history, not of the rest. -/
theorem congr {s' : Session} (tracks : t.Tracks past s) (history : s'.history = s.history)
    (sequences : s'.font.sequences = s.font.sequences) : t.Tracks past s' where
  kept := history ▸ tracks.kept
  states := by
    rw [history, sequences]
    exact tracks.states
  descriptions := by
    rw [history]
    exact tracks.descriptions
  position := tracks.position
  depth := by
    rw [history]
    exact tracks.depth

/-- Recording adds the live state to the past and forgets what was undone. -/
theorem committed (tracks : t.Tracks past s) (sound : s.Sound) (description : String)
    (edit : Edit) :
    (t.record ⟨description, edit.sequences⟩).Tracks
      (past ++ [.capture description s.font]) (s.committed description edit) := by
  -- What the full undo side drops are its oldest entries, which stand first in the past.
  have entries : (s.committed description edit).history.undoEntries =
      .capture description s.font :: s.history.undoEntries.take 49 := by
    change pushBounded s.history.capacity _ _ = _
    rw [sound.capacity]
    rfl
  have none : (s.committed description edit).history.redoEntries = [] := rfl
  have live : (s.committed description edit).font.sequences = edit.sequences := rfl
  have whole : (past.map (·.sequences)).take (past.length + 1) = past.map (·.sequences) :=
    List.take_of_length_le (by simp)
  constructor
  · rw [entries, List.reverse_cons, List.suffix_append_inj_of_length_eq rfl]
    refine ⟨?_, rfl⟩
    exact (List.reverse_suffix.mpr (List.take_prefix ..)).trans tracks.kept
  · rw [none, live]
    simp [record, tracks.states, tracks.position, List.take_append, whole, HistoryEntry.capture]
  · rw [none]
    simp [record, tracks.descriptions, tracks.position, HistoryEntry.capture]
  · simp [record, tracks.position]
  · rw [entries]
    simp only [record, tracks.depth, List.length_cons, List.length_take]
    omega

section
variable {entry : HistoryEntry} {older : List HistoryEntry}

/-- Undoing takes the last entry from the past and puts the live state ahead. -/
theorem undone (tracks : t.Tracks past s) (top : s.history.undoEntries = entry :: older)
    (restorable : entry.sequences ≠ []) :
    ∃ past', (t.back 1).Tracks past'
      (s.restored (s.history.undone s.font entry older) entry.sequences restorable) := by
  obtain ⟨forgotten, kept⟩ := tracks.kept
  rw [top, List.reverse_cons, ← List.append_assoc] at kept
  refine ⟨forgotten ++ older.reverse, List.suffix_append .., ?_, ?_, ?_, ?_⟩
  · change t.states = _ ++ entry.sequences :: s.font.sequences :: _
    rw [tracks.states, ← kept]
    simp
  · change t.descriptions = _ ++ entry.description :: _
    rw [tracks.descriptions, ← kept]
    simp
  · simp [back, tracks.position, ← kept]
  · change t.depth - 1 = older.length
    rw [tracks.depth, top]
    rfl

/-- Redoing puts the live state back into the past. -/
theorem redone (tracks : t.Tracks past s) (top : s.history.redoEntries = entry :: older)
    (restorable : entry.sequences ≠ []) :
    ∃ past', (t.forward 1).Tracks past'
      (s.restored (s.history.redone s.font entry older) entry.sequences restorable) := by
  refine ⟨past ++ [.capture entry.description s.font], ?_, ?_, ?_, ?_, ?_⟩
  · change (_ :: s.history.undoEntries).reverse <:+ _
    rw [List.reverse_cons, List.suffix_append_inj_of_length_eq rfl]
    exact ⟨tracks.kept, rfl⟩
  · change t.states = _ ++ entry.sequences :: older.map _
    rw [tracks.states, top]
    simp [HistoryEntry.capture]
  · change t.descriptions = _ ++ older.map _
    rw [tracks.descriptions, top]
    simp [HistoryEntry.capture]
  · simp [forward, tracks.position]
  · change t.depth + 1 = (_ :: s.history.undoEntries).length
    rw [tracks.depth, List.length_cons]

end

end Tracks

end Timeline

end BitmapFont
