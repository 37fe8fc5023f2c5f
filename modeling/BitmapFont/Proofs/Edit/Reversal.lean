import BitmapFont.Proofs.Edit.History

/-!
Undoing and redoing take each other back.

A history of any capacity is used next to a font that other code changes as it
likes. `History.Reachable` lists the pairs that such a use can lead to. Each side
is bounded for itself, so that restoring a state loses no entry rests on the sum of
the two lengths, which `Sound` bounds:

* `Reachable.sound`: every reachable history is sound, whatever happens to the font;
* `Sound.redo_undone` and `Sound.undo_redone`: a restored state is taken back
  without a trace, in the font and on both sides;
* `Reachable.undo_redo_inverse`: all of this for every reachable pair.
-/

namespace BitmapFont.History

/-- The histories that can stand next to a font. Every entry is a copy of some font,
and between two calls the font may become any other. -/
inductive Reachable (capacity : Nat) : History → Font → Prop
  | new (font : Font) : Reachable capacity (withCapacity capacity) font
  | snapshot {h : History} {font : Font} (description : String) :
      Reachable capacity h font → Reachable capacity (h.snapshot description font) font
  | push {h : History} {font : Font} (description : String) (other : Font) :
      Reachable capacity h font →
      Reachable capacity (h.push (.capture description other)) font
  | undone {h : History} {font : Font} :
      Reachable capacity h font →
      Reachable capacity (undo.on (h, font)).2.1 (undo.on (h, font)).2.2
  | redone {h : History} {font : Font} :
      Reachable capacity h font →
      Reachable capacity (redo.on (h, font)).2.1 (redo.on (h, font)).2.2
  | edited {h : History} {font : Font} (other : Font) :
      Reachable capacity h font → Reachable capacity h other

/-! ### One step -/

section
variable {h : History} {font : Font}

/-- Undoing keeps a history sound and its capacity as it is. -/
theorem Sound.after_undo (sound : h.Sound) (font : Font) :
    (undo.on (h, font)).2.1.Sound ∧ (undo.on (h, font)).2.1.capacity = h.capacity := by
  cases top : h.undoEntries with
  | nil =>
      rw [on_undo_nil font top]
      exact ⟨sound, rfl⟩
  | cons entry older =>
      rw [sound.on_undo font top]
      exact ⟨sound.undone font top, rfl⟩

/-- Redoing keeps a history sound and its capacity as it is. -/
theorem Sound.after_redo (sound : h.Sound) (font : Font) :
    (redo.on (h, font)).2.1.Sound ∧ (redo.on (h, font)).2.1.capacity = h.capacity := by
  obtain ⟨kept, capacity⟩ := sound.swapped.after_undo font
  rw [on_redo_eq_swapped]
  exact ⟨kept.swapped, capacity⟩

/-- Undoing always answers. -/
theorem Sound.undo_answers (sound : h.Sound) (font : Font) :
    ∃ outcome, (undo.on (h, font)).1 = .ok outcome := by
  cases top : h.undoEntries with
  | nil =>
      rw [on_undo_nil font top]
      exact ⟨.empty, rfl⟩
  | cons entry older =>
      rw [sound.on_undo font top]
      exact ⟨.applied, rfl⟩

theorem Sound.redo_answers (sound : h.Sound) (font : Font) :
    ∃ outcome, (redo.on (h, font)).1 = .ok outcome := by
  rw [on_redo_eq_swapped]
  exact sound.swapped.undo_answers font

/-- What an undoing that found an entry took off and left behind. -/
theorem Sound.undo_applied {h' : History} {font' : Font} (sound : h.Sound)
    (applied : undo.on (h, font) = (.ok .applied, h', font')) :
    ∃ entry older, h.undoEntries = entry :: older ∧ h' = h.undone font entry older ∧
      font'.sequences = entry.sequences ∧ { font' with
        sequences := font.sequences
        nonempty := font.nonempty } = font := by
  cases top : h.undoEntries with
  | nil =>
      rw [on_undo_nil font top] at applied
      cases applied
  | cons entry older =>
      rw [sound.on_undo font top] at applied
      cases applied
      exact ⟨entry, older, rfl, rfl, rfl, rfl⟩

/-- What was undone is redone without a trace. -/
theorem Sound.redo_undone {h' : History} {font' : Font} (sound : h.Sound)
    (applied : undo.on (h, font) = (.ok .applied, h', font')) :
    redo.on (h', font') = (.ok .applied, h, font) := by
  obtain ⟨entry, older, top, rfl, restored, original⟩ := sound.undo_applied applied
  -- The entry that redoing takes off is the one that undoing has just put there.
  have put : (h.undone font entry older).redoEntries =
      .capture entry.description font :: h.redoEntries := rfl
  have back : HistoryEntry.capture entry.description font' = entry := by
    unfold HistoryEntry.capture
    rw [restored]
  rw [(sound.undone font top).on_redo font' put]
  refine congrArg (Prod.mk _) (Prod.ext ?_ original)
  change { h with undoEntries := HistoryEntry.capture entry.description font' :: older } = h
  rw [back, ← top]

/-- What was redone is undone without a trace. -/
theorem Sound.undo_redone {h' : History} {font' : Font} (sound : h.Sound)
    (applied : redo.on (h, font) = (.ok .applied, h', font')) :
    undo.on (h', font') = (.ok .applied, h, font) := by
  have undone : undo.on (h.swapped, font) = (.ok .applied, h'.swapped, font') := by
    rw [on_redo_eq_swapped] at applied
    simp only [Prod.mk.injEq] at applied
    obtain ⟨answer, history, live⟩ := applied
    refine Prod.ext answer (Prod.ext ?_ live)
    rw [← history]
    rfl
  have redone := sound.swapped.redo_undone undone
  rw [on_redo_eq_swapped] at redone
  simp only [Prod.mk.injEq] at redone
  obtain ⟨answer, history, live⟩ := redone
  exact Prod.ext answer (Prod.ext (congrArg History.swapped history) live)

end

/-! ### Every reachable history -/

namespace Reachable

variable {capacity : Nat} {h : History} {font : Font}

/-- A reachable history is sound and has the capacity that was asked for. -/
theorem sound (reached : Reachable capacity h font) :
    h.Sound ∧ h.capacity = max capacity 1 := by
  induction reached with
  | new font => exact ⟨sound_withCapacity capacity, rfl⟩
  | @snapshot h font description reached ih =>
      exact ⟨ih.1.snapshot description font, ih.2⟩
  | push description other reached ih =>
      exact ⟨ih.1.push (capture_restorable description other), ih.2⟩
  | @undone h font reached ih =>
      obtain ⟨kept, same⟩ := ih.1.after_undo font
      exact ⟨kept, same.trans ih.2⟩
  | @redone h font reached ih =>
      obtain ⟨kept, same⟩ := ih.1.after_redo font
      exact ⟨kept, same.trans ih.2⟩
  | edited other reached ih => exact ih

/-- Both sides together fit the capacity, undoing and redoing always answer, the
side that receives the live state loses no entry, and each takes back the other. -/
theorem undo_redo_inverse (reached : Reachable capacity h font) :
    h.undoEntries.length + h.redoEntries.length ≤ max capacity 1 ∧
    (∃ outcome, (undo.on (h, font)).1 = .ok outcome) ∧
    (∃ outcome, (redo.on (h, font)).1 = .ok outcome) ∧
    (∀ entry older, h.undoEntries = entry :: older →
      ∃ font', font'.sequences = entry.sequences ∧ undo.on (h, font) = (.ok .applied,
        { h with
          undoEntries := older
          redoEntries := .capture entry.description font :: h.redoEntries }, font')) ∧
    (∀ entry older, h.redoEntries = entry :: older →
      ∃ font', font'.sequences = entry.sequences ∧ redo.on (h, font) = (.ok .applied,
        { h with
          undoEntries := .capture entry.description font :: h.undoEntries
          redoEntries := older }, font')) ∧
    (∀ h' font', undo.on (h, font) = (.ok .applied, h', font') →
      redo.on (h', font') = (.ok .applied, h, font)) ∧
    ∀ h' font', redo.on (h, font) = (.ok .applied, h', font') →
      undo.on (h', font') = (.ok .applied, h, font) := by
  obtain ⟨sound, same⟩ := reached.sound
  refine ⟨?_, sound.undo_answers font, sound.redo_answers font, ?_, ?_, ?_, ?_⟩
  · rw [← same]
    exact sound.length_le
  · intro entry older top
    exact ⟨_, rfl, sound.on_undo font top⟩
  · intro entry older top
    exact ⟨_, rfl, sound.on_redo font top⟩
  · intro h' font' applied
    exact sound.redo_undone applied
  · intro h' font' applied
    exact sound.undo_redone applied

/-- A history of capacity zero, which holds one entry, after two snapshots. -/
def twiceRecorded : History :=
  ((withCapacity 0).snapshot "first" .untitled).snapshot "second" .untitled

theorem undo_redo_inverse_twice_recorded :
    Reachable 0 twiceRecorded .untitled ∧
    twiceRecorded.undoEntries.length + twiceRecorded.redoEntries.length ≤ 1 ∧
    ∃ h' font', undo.on (twiceRecorded, .untitled) = (.ok .applied, h', font') ∧
      redo.on (h', font') = (.ok .applied, twiceRecorded, .untitled) := by
  have reached : Reachable 0 twiceRecorded .untitled :=
    ((Reachable.new .untitled).snapshot "first").snapshot "second"
  obtain ⟨fits, -, -, applies, -, takenBack, -⟩ := reached.undo_redo_inverse
  obtain ⟨font', -, applied⟩ := applies _ _ rfl
  exact ⟨reached, fits, _, font', applied, takenBack _ _ applied⟩

end Reachable

end BitmapFont.History
