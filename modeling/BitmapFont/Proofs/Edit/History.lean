import BitmapFont.Edit.History

/-!
What holds of every undo history.

A history is sound if every entry can be restored and both sides together fit the
capacity. A new history is sound and every operation keeps it so. Two facts follow
that the operations do not show by themselves:

* undoing and redoing never fail (`Sound.on_undo`, `Sound.on_redo`), although they
  take an entry off its side before they know that it can be restored;
* the side that receives the live state has room for it (`Sound.undo_room`), so only
  recording drops an entry.
-/

namespace BitmapFont.History

/-- What holds of a history at all times. -/
structure Sound (h : History) : Prop where
  undo_restorable : ∀ entry ∈ h.undoEntries, entry.sequences ≠ []
  redo_restorable : ∀ entry ∈ h.redoEntries, entry.sequences ≠ []
  length_le : h.undoEntries.length + h.redoEntries.length ≤ h.capacity

theorem mem_pushBounded {capacity : Nat} {entry e : HistoryEntry} {entries : List HistoryEntry}
    (mem : e ∈ pushBounded capacity entry entries) : e = entry ∨ e ∈ entries := by
  rcases List.mem_cons.mp mem with same | old
  · exact .inl same
  · exact .inr (List.mem_of_mem_take old)

/-- A full side loses its oldest entry, a side with room none. -/
theorem pushBounded_of_le {capacity : Nat} {entries : List HistoryEntry} (entry : HistoryEntry)
    (fits : entries.length ≤ capacity) :
    pushBounded capacity entry entries =
      entry :: if entries.length = capacity then entries.dropLast else entries := by
  split
  · rename_i full
    rw [List.dropLast_eq_take, full]
    rfl
  · rename_i room
    exact pushBounded_of_lt entry (by omega)

theorem capture_restorable (description : String) (font : Font) :
    (HistoryEntry.capture description font).sequences ≠ [] :=
  font.nonempty

theorem sound_withCapacity (capacity : Nat) : (withCapacity capacity).Sound where
  undo_restorable := by
    intro entry mem
    cases mem
  redo_restorable := by
    intro entry mem
    cases mem
  length_le := Nat.zero_le _

section
variable {h : History} {entry : HistoryEntry} {older : List HistoryEntry}

namespace Sound

theorem push (sound : h.Sound) (restorable : entry.sequences ≠ []) : (h.push entry).Sound where
  undo_restorable := by
    intro e mem
    rcases mem_pushBounded mem with rfl | old
    · exact restorable
    · exact sound.undo_restorable e old
  redo_restorable := by
    intro e mem
    cases mem
  length_le := by
    have := length_pushBounded_le h.capacity_pos entry h.undoEntries
    simpa only [History.push, List.length_nil, Nat.add_zero] using this

theorem snapshot (sound : h.Sound) (description : String) (font : Font) :
    (h.snapshot description font).Sound :=
  sound.push (capture_restorable description font)

/-- While there is something to undo, the redo side has room. -/
theorem undo_room (sound : h.Sound) (top : h.undoEntries = entry :: older) :
    h.redoEntries.length < h.capacity := by
  have := sound.length_le
  rw [top, List.length_cons] at this
  omega

end Sound

/-! ### Undoing -/

/-- The history after the entry on top of the undo side was restored over `font`. -/
def undone (h : History) (font : Font) (entry : HistoryEntry) (older : List HistoryEntry) :
    History :=
  { h with
    undoEntries := older
    redoEntries := .capture entry.description font :: h.redoEntries }

theorem on_undo_nil (font : Font) (none : h.undoEntries = []) :
    undo.on (h, font) = (.ok .empty, h, font) := by
  simp [undo, Change.on_bind, none]

namespace Sound

theorem undone (sound : h.Sound) (font : Font) (top : h.undoEntries = entry :: older) :
    (h.undone font entry older).Sound where
  undo_restorable := by
    intro e mem
    exact sound.undo_restorable e (top ▸ List.mem_cons_of_mem entry mem)
  redo_restorable := by
    intro e mem
    rcases List.mem_cons.mp mem with rfl | old
    · exact capture_restorable entry.description font
    · exact sound.redo_restorable e old
  length_le := by
    have := sound.length_le
    rw [top, List.length_cons] at this
    simp only [History.undone, List.length_cons]
    omega

theorem top_undo_restorable (sound : h.Sound) (top : h.undoEntries = entry :: older) :
    entry.sequences ≠ [] :=
  sound.undo_restorable entry (top ▸ List.mem_cons_self)

/-- Undoing restores the top entry, and the live state can then be redone. -/
theorem on_undo (sound : h.Sound) (font : Font) (top : h.undoEntries = entry :: older) :
    undo.on (h, font) =
      (.ok .applied, h.undone font entry older,
        { font with sequences := entry.sequences, nonempty := sound.top_undo_restorable top }) := by
  have restorable := sound.top_undo_restorable top
  have room := pushBounded_of_lt (.capture entry.description font) (sound.undo_room top)
  simp [undo, Change.on_bind, top, Font.restoreSequences, restorable, room, History.undone,
    Except.map]

end Sound

/-! ### Redoing

The two sides play the same part in opposite directions. -/

/-- The history with its sides exchanged. -/
def swapped (h : History) : History :=
  { h with undoEntries := h.redoEntries, redoEntries := h.undoEntries }

/-- The history after the entry on top of the redo side was restored over `font`. -/
def redone (h : History) (font : Font) (entry : HistoryEntry) (older : List HistoryEntry) :
    History :=
  (h.swapped.undone font entry older).swapped

/-- Redoing is undoing with the sides exchanged. -/
theorem on_redo_eq_swapped (h : History) (font : Font) :
    redo.on (h, font) =
      ((undo.on (h.swapped, font)).1, (undo.on (h.swapped, font)).2.1.swapped,
        (undo.on (h.swapped, font)).2.2) := by
  rcases h with ⟨undoEntries, redoEntries, capacity, pos⟩
  cases redoEntries with
  | nil => rfl
  | cons entry older =>
      cases restored : font.restoreSequences entry.sequences with
      | error cause => simp [redo, undo, Change.on_bind, swapped, restored]
      | ok font => simp [redo, undo, Change.on_bind, swapped, restored]

theorem on_redo_nil (font : Font) (none : h.redoEntries = []) :
    redo.on (h, font) = (.ok .empty, h, font) := by
  have undone : undo.on (h.swapped, font) = (.ok .empty, h.swapped, font) := on_undo_nil font none
  rw [on_redo_eq_swapped, undone]
  rfl

namespace Sound

theorem swapped (sound : h.Sound) : h.swapped.Sound where
  undo_restorable := sound.redo_restorable
  redo_restorable := sound.undo_restorable
  length_le := by
    have := sound.length_le
    rwa [Nat.add_comm] at this

theorem redone (sound : h.Sound) (font : Font) (top : h.redoEntries = entry :: older) :
    (h.redone font entry older).Sound :=
  (sound.swapped.undone font top).swapped

theorem top_redo_restorable (sound : h.Sound) (top : h.redoEntries = entry :: older) :
    entry.sequences ≠ [] :=
  sound.swapped.top_undo_restorable top

/-- Redoing restores the top entry, and the live state can then be undone. -/
theorem on_redo (sound : h.Sound) (font : Font) (top : h.redoEntries = entry :: older) :
    redo.on (h, font) =
      (.ok .applied, h.redone font entry older,
        { font with sequences := entry.sequences, nonempty := sound.top_redo_restorable top }) := by
  rw [on_redo_eq_swapped, sound.swapped.on_undo font top]
  rfl

end Sound

end

end BitmapFont.History
