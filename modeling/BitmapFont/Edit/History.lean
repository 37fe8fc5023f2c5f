import BitmapFont.Change
import BitmapFont.Font.Basic

/-!
Undo history.

An entry is a copy of all sequences of a font, taken before a change. Undoing
moves the live state to the redo side and redoing moves it back, so the two
sides together never hold more entries than the capacity unless they did so
before. Entries are listed with the most recent first; when a side is full its
oldest entry is dropped. An entry is taken off its side before its state is
restored, so an entry that could not be restored would be lost.
-/

namespace BitmapFont

/-- A copy of the sequences of a font with a description of the change that
followed. -/
structure HistoryEntry where
  description : String
  sequences : List Sequence
deriving DecidableEq

/-- What an undo or redo request did. -/
inductive HistoryOutcome where
  | applied
  | empty
deriving DecidableEq, Repr

/-- The entries that can be undone and redone, most recent first. -/
structure History where
  undoEntries : List HistoryEntry
  redoEntries : List HistoryEntry
  /-- How many entries each side holds at most. -/
  capacity : Nat
  capacity_pos : 0 < capacity
deriving DecidableEq

namespace HistoryEntry

def capture (description : String) (font : Font) : HistoryEntry :=
  { description, sequences := font.sequences }

end HistoryEntry

/-- Adds an entry to a side, dropping the oldest ones if the side is full. -/
def pushBounded (capacity : Nat) (entry : HistoryEntry) (entries : List HistoryEntry) :
    List HistoryEntry :=
  entry :: entries.take (capacity - 1)

/-- A side never outgrows the capacity. -/
theorem length_pushBounded_le {capacity : Nat} (pos : 0 < capacity) (entry : HistoryEntry)
    (entries : List HistoryEntry) : (pushBounded capacity entry entries).length ≤ capacity := by
  simp only [pushBounded, List.length_cons, List.length_take]
  omega

/-- Nothing is dropped from a side with room. -/
theorem pushBounded_of_lt {capacity : Nat} {entries : List HistoryEntry} (entry : HistoryEntry)
    (room : entries.length < capacity) : pushBounded capacity entry entries = entry :: entries := by
  simp only [pushBounded]
  rw [List.take_of_length_le (by omega)]

namespace History

/-- Capacity of a history unless another is asked for. -/
def defaultCapacity : Nat := 50

/-- An empty history. A capacity of zero counts as one. -/
def withCapacity (capacity : Nat) : History where
  undoEntries := []
  redoEntries := []
  capacity := max capacity 1
  capacity_pos := by omega

def new : History :=
  withCapacity defaultCapacity

/-- Records an entry. What was undone can no longer be redone. -/
def push (h : History) (entry : HistoryEntry) : History :=
  { h with undoEntries := pushBounded h.capacity entry h.undoEntries, redoEntries := [] }

/-- Records the state of a font before a change. -/
def snapshot (h : History) (description : String) (font : Font) : History :=
  h.push (.capture description font)

/-- Restores the most recent entry. The live state can then be redone. -/
def undo : Change (History × Font) HistoryOutcome := do
  let (h, font) ← get
  match h.undoEntries with
  | [] => return .empty
  | entry :: older => do
    let current := HistoryEntry.capture entry.description font
    let taken := { h with undoEntries := older }
    set (taken, font)
    let font ← font.restoreSequences entry.sequences
    set ({ taken with redoEntries := pushBounded h.capacity current h.redoEntries }, font)
    return .applied

/-- Restores the most recently undone state. The live state can then be undone. -/
def redo : Change (History × Font) HistoryOutcome := do
  let (h, font) ← get
  match h.redoEntries with
  | [] => return .empty
  | entry :: older => do
    let current := HistoryEntry.capture entry.description font
    let taken := { h with redoEntries := older }
    set (taken, font)
    let font ← font.restoreSequences entry.sequences
    set ({ taken with undoEntries := pushBounded h.capacity current h.undoEntries }, font)
    return .applied

def canUndo (h : History) : Bool :=
  !h.undoEntries.isEmpty

def canRedo (h : History) : Bool :=
  !h.redoEntries.isEmpty

def undoDescription? (h : History) : Option String :=
  h.undoEntries.head?.map (·.description)

def redoDescription? (h : History) : Option String :=
  h.redoEntries.head?.map (·.description)

end History

end BitmapFont
