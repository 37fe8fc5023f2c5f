import BitmapFont.Proofs.Edit.Chains

/-!
Pixel edits one after the other.

A pixel edit sets, clears or flips one pixel of a glyph of the active sequence, and is
ignored where the glyph has no such pixel. What a script of edits makes of a pixel is
decided by the edits of its place alone, in their order: `PixelEdit.outcome`. Main facts:

* `Desk.run_edited`, `Desk.runAll_edited`: what one edit and what a script does to a
  session, the undo history included;
* `Session.Edited.font_eq`: scripts that come to the same at every place leave the same
  font;
* `Desk.Reachable.pixels_last_write_wins`: all of this for the states of a session.
-/

namespace BitmapFont

/-- What an edit does to the pixel that it names. -/
inductive Touch where
  | write (value : Bool)
  | flip
deriving DecidableEq

def Touch.apply : Touch → Bool → Bool
  | write value, _ => value
  | flip, old => !old

/-- A codepoint and a position, which its glyph need not have. -/
structure Place where
  codepoint : UInt8
  x : Int
  y : Int
deriving DecidableEq

structure PixelEdit where
  place : Place
  touch : Touch
deriving DecidableEq

namespace PixelEdit

/-- The request for an edit. -/
def command : PixelEdit → Command
  | ⟨place, .write value⟩ => .setPixel place.codepoint place.x place.y value
  | ⟨place, .flip⟩ => .togglePixel place.codepoint place.x place.y

/-- What becomes of the value of a pixel by the edits that name its place. -/
def outcome (edits : List PixelEdit) (place : Place) (old : Bool) : Bool :=
  (edits.filter (·.place = place)).foldl (fun value e => e.touch.apply value) old

/-- Two scripts in which the edits of every place are the same and come in the same
order. -/
def SameAtEachPlace (edits edits' : List PixelEdit) : Prop :=
  ∀ place, edits.filter (·.place = place) = edits'.filter (·.place = place)

theorem outcome_singleton (e : PixelEdit) (place : Place) (old : Bool) :
    outcome [e] place old = if e.place = place then e.touch.apply old else old := by
  unfold outcome
  by_cases named : e.place = place
  · rw [if_pos named, List.filter_cons_of_pos (by simp [named])]
    rfl
  · rw [if_neg named, List.filter_cons_of_neg (by simp [named])]
    rfl

theorem outcome_append (edits edits' : List PixelEdit) (place : Place) (old : Bool) :
    outcome (edits ++ edits') place old = outcome edits' place (outcome edits place old) := by
  unfold outcome
  rw [List.filter_append, List.foldl_append]

/-- Flipping a pixel twice changes nothing, whatever place the pixel has. -/
theorem outcome_flip_flip (named place : Place) (old : Bool) :
    outcome [⟨named, .flip⟩, ⟨named, .flip⟩] place old = old := by
  have twice := outcome_append [⟨named, .flip⟩] [⟨named, .flip⟩] place old
  rw [List.singleton_append, outcome_singleton, outcome_singleton] at twice
  rw [twice]
  split
  · exact Bool.not_not old
  · rfl

/-- Edits of different places can change their order. -/
theorem sameAtEachPlace_swap {a b : PixelEdit} (apart : a.place ≠ b.place)
    (before after : List PixelEdit) :
    SameAtEachPlace (before ++ a :: b :: after) (before ++ b :: a :: after) := by
  intro place
  rw [List.filter_append, List.filter_append]
  by_cases first : a.place = place
  · have second : ¬ b.place = place := fun same => apart (first.trans same.symm)
    simp [first, second]
  · simp [List.filter_cons, first]

end PixelEdit

namespace Session

instance (s : Session) (codepoint : UInt8) (x y : Int) : Decidable (s.HasPixel codepoint x y) :=
  inferInstanceAs (Decidable (_ ∧ _ ∧ _ ∧ _))

/-- How many edits of a script name a pixel of the active sequence. -/
def countInside (s : Session) (edits : List PixelEdit) : Nat :=
  edits.countP fun e => s.HasPixel e.place.codepoint e.place.x e.place.y

/-- What a script of pixel edits makes of a session. -/
structure Edited (s : Session) (edits : List PixelEdit) (s' : Session) : Prop
    extends s.ChangedAt (fun c => ∃ e ∈ edits, e.place.codepoint = c) s' where
  width : ∀ c, (s'.glyph c).width = (s.glyph c).width
  height : ∀ c, (s'.glyph c).height = (s.glyph c).height
  pixels : ∀ (c : UInt8) (x y : Nat), (s.glyph c).InBounds x y →
    (s'.glyph c).pixel x y = PixelEdit.outcome edits ⟨c, x, y⟩ ((s.glyph c).pixel x y)
  undo_length : s'.history.undoEntries.length =
    min (s.history.undoEntries.length + s.countInside edits) 50

section
variable {s a b : Session} {edits edits' : List PixelEdit}

theorem Sound.length_undoEntries_le (sound : s.Sound) : s.history.undoEntries.length ≤ 50 := by
  have fits := sound.history.length_le
  rw [sound.capacity] at fits
  exact Nat.le_trans (Nat.le_add_right _ _) fits

theorem ChangedAt.height {touched : UInt8 → Prop} (changed : s.ChangedAt touched a) (c : UInt8) :
    (a.glyph c).height = (s.glyph c).height := by
  simp only [glyph, Sequence.glyph_height, changed.metrics.height]

theorem Edited.refl (sound : s.Sound) : s.Edited [] s where
  toChangedAt := .refl s _
  width := fun _ => rfl
  height := fun _ => rfl
  pixels := fun _ _ _ _ => rfl
  undo_length := (Nat.min_eq_left sound.length_undoEntries_le).symm

theorem Edited.inBounds_iff (edited : s.Edited edits a) (c : UInt8) (x y : Nat) :
    (a.glyph c).InBounds x y ↔ (s.glyph c).InBounds x y := by
  unfold Glyph.InBounds
  rw [edited.width, edited.height]

/-- Edits change no sizes, so they do not change which later edits are ignored. -/
theorem Edited.hasPixel_iff (edited : s.Edited edits a) (c : UInt8) (x y : Int) :
    a.HasPixel c x y ↔ s.HasPixel c x y := by
  unfold HasPixel
  rw [edited.width, edited.height]

theorem Edited.countInside_eq (edited : s.Edited edits a) (later : List PixelEdit) :
    a.countInside later = s.countInside later := by
  simp only [countInside, edited.hasPixel_iff]

theorem Edited.trans (first : s.Edited edits a) (second : a.Edited edits' b) :
    s.Edited (edits ++ edits') b where
  toChangedAt := by
    have both := first.toChangedAt.trans second.toChangedAt
    simpa only [List.mem_append, or_and_right, exists_or] using both
  width := fun c => (second.width c).trans (first.width c)
  height := fun c => (second.height c).trans (first.height c)
  pixels := by
    intro c x y inside
    rw [second.pixels c x y ((first.inBounds_iff c x y).mpr inside), first.pixels c x y inside,
      PixelEdit.outcome_append]
  undo_length := by
    have counted : s.countInside (edits ++ edits') =
        s.countInside edits + s.countInside edits' := List.countP_append
    rw [second.undo_length, first.undo_length, first.countInside_eq, counted]
    omega

/-- Scripts that come to the same at every pixel leave the same font. -/
theorem Edited.font_eq (left : s.Edited edits a) (right : s.Edited edits' b)
    (same : ∀ place old, PixelEdit.outcome edits place old = PixelEdit.outcome edits' place old) :
    a.font = b.font := by
  refine left.toChangedAt.font_eq right.toChangedAt ?_
  intro c
  apply Glyph.ext_pixels
  · simp only [glyph, Sequence.glyph_codepoint]
  · rw [left.width, right.width]
  · rw [left.height, right.height]
  · intro x y inside
    have inside' := (left.inBounds_iff c x y).mp inside
    rw [left.pixels c x y inside', right.pixels c x y inside', same]

end

end Session

namespace Desk

/-- Carries out commands one after the other, up to the first that is refused. -/
def runAll (commands : List Command) : Change Desk (List Reply) :=
  commands.mapM run

section
variable {d d' : Desk} {e : PixelEdit}

theorem on_runAll_cons {command : Command} {reply : Reply} {mid : Desk}
    (ran : (run command).on d = (.ok reply, mid)) (commands : List Command) :
    (runAll (command :: commands)).on d =
      (((runAll commands).on mid).1.map (reply :: ·), ((runAll commands).on mid).2) := by
  unfold runAll
  rw [List.mapM_cons, Change.on_bind, ran]
  change ((List.mapM run commands) >>= fun replies => pure (reply :: replies)).on mid = _
  rw [bind_pure_comp, Change.on_map]

/-- An edit paints over the pixel that it names, if there is one. -/
theorem run_painted (d : Desk) (e : PixelEdit) :
    ∃ d', (run e.command).on d = (.ok .done, d') ∧
      d.session.ChangedAt (· = e.place.codepoint) d'.session ∧
      (d.session.glyph e.place.codepoint).Painted e.place.x e.place.y
        (e.touch.apply
          ((d.session.glyph e.place.codepoint).pixel e.place.x.toNat e.place.y.toNat))
        (d'.session.glyph e.place.codepoint) := by
  obtain ⟨place, touch⟩ := e
  cases touch with
  | write value => exact run_setPixel_painted d place.codepoint place.x place.y value
  | flip => exact run_togglePixel_painted d place.codepoint place.x place.y

theorem run_outside
    (outside : ¬ d.session.HasPixel e.place.codepoint e.place.x e.place.y) :
    (run e.command).on d = (.ok .done, d) := by
  obtain ⟨place, touch⟩ := e
  cases touch with
  | write value => exact run_setPixel_outside outside value
  | flip => exact run_togglePixel_outside outside

theorem records_command
    (inside : d.session.HasPixel e.place.codepoint e.place.x e.place.y) :
    e.command.Records d.session := by
  obtain ⟨place, touch⟩ := e
  cases touch with
  | write value => exact inside
  | flip => exact inside

/-- One more change can be undone after an edit that was not ignored, unless the history
is full. -/
theorem length_undoEntries_run (sound : d.session.Sound) {reply : Reply}
    (ran : (run e.command).on d = (.ok reply, d')) :
    d'.session.history.undoEntries.length =
      min (d.session.history.undoEntries.length + d.session.countInside [e]) 50 := by
  have fits := sound.length_undoEntries_le
  by_cases inside : d.session.HasPixel e.place.codepoint e.place.x e.place.y
  · have counted : d.session.countInside [e] = 1 :=
      List.countP_cons_of_pos (decide_eq_true inside)
    have recorded := recording_run (records_command inside)
    rw [ran] at recorded
    obtain ⟨entry, -, entries⟩ := (recorded.recordedOnce sound).undoEntries
    rw [entries, counted, List.length_cons]
    split
    · rw [List.length_dropLast]
      omega
    · omega
  · have counted : d.session.countInside [e] = 0 :=
      List.countP_cons_of_neg (by simp [inside])
    rw [run_outside inside] at ran
    cases ran
    rw [counted]
    omega

/-- One edit is never refused, and it does what a script of one edit does. -/
theorem run_edited (sound : d.session.Sound) (e : PixelEdit) :
    ∃ d', (run e.command).on d = (.ok .done, d') ∧ d'.session.Sound ∧
      d.session.Edited [e] d'.session := by
  obtain ⟨d', ran, changed, painted⟩ := run_painted d e
  have call := call_run sound.history e.command
  rw [ran] at call
  have other : ∀ c, c ≠ e.place.codepoint → d'.session.glyph c = d.session.glyph c :=
    fun c apart => changed.glyphs c apart
  have target : (fun c => ∃ other ∈ [e], other.place.codepoint = c) =
      (· = e.place.codepoint) := by
    funext c
    simp [eq_comm]
  refine ⟨d', ran, call.sound sound, target ▸ changed, ?_, changed.height, ?_,
    length_undoEntries_run sound ran⟩
  · intro c
    by_cases named : c = e.place.codepoint
    · rw [named, painted.width]
    · rw [other c named]
  · intro c x y inside
    rw [PixelEdit.outcome_singleton]
    by_cases named : e.place = ⟨c, x, y⟩
    · have pixels := painted.pixels x y
      rw [named] at pixels
      rw [if_pos named, pixels, if_pos ⟨rfl, rfl, inside⟩]
      rfl
    · rw [if_neg named]
      by_cases target : c = e.place.codepoint
      · rw [target, painted.pixels, if_neg]
        rintro ⟨column, row, -⟩
        apply named
        rw [target, column, row]
      · rw [other c target]

/-- No edit of a script is refused. -/
theorem runAll_edited (sound : d.session.Sound) (edits : List PixelEdit) :
    ∃ d', (runAll (edits.map (·.command))).on d =
        (.ok (List.replicate edits.length .done), d') ∧
      d.session.Edited edits d'.session := by
  induction edits generalizing d with
  | nil => exact ⟨d, rfl, .refl sound⟩
  | cons e rest ih =>
      obtain ⟨mid, ran, soundMid, first⟩ := run_edited sound e
      obtain ⟨d', ranRest, later⟩ := ih soundMid
      refine ⟨d', ?_, first.trans later⟩
      rw [List.map_cons, on_runAll_cons ran, ranRest]
      rfl

/-- The font that a script leaves behind is told by what it comes to at every place. -/
theorem font_runAll_eq (sound : d.session.Sound) (edits edits' : List PixelEdit)
    (same : ∀ place old, PixelEdit.outcome edits place old = PixelEdit.outcome edits' place old) :
    ((runAll (edits.map (·.command))).on d).2.session.font =
      ((runAll (edits'.map (·.command))).on d).2.session.font := by
  obtain ⟨a, ran, edited⟩ := runAll_edited sound edits
  obtain ⟨b, ran', edited'⟩ := runAll_edited sound edits'
  rw [ran, ran']
  exact edited.font_eq edited' same

end

/-- No edit of a script of pixel edits is refused. In the end every pixel has the value
that the edits of its place, one after the other, make of its first value, nothing else
has changed, and of the edits that were not ignored the last can be undone. So edits of
different places can be made in any order, and flipping a pixel twice restores the font. -/
theorem Reachable.pixels_last_write_wins {d : Desk} (reached : d.Reachable) :
    (∀ edits : List PixelEdit, ∃ d', (runAll (edits.map (·.command))).on d =
        (.ok (List.replicate edits.length .done), d') ∧ d.session.Edited edits d'.session) ∧
      (∀ edits edits', PixelEdit.SameAtEachPlace edits edits' →
        ((runAll (edits.map (·.command))).on d).2.session.font =
          ((runAll (edits'.map (·.command))).on d).2.session.font) ∧
      ∀ codepoint x y,
        ((runAll [.togglePixel codepoint x y, .togglePixel codepoint x y]).on d).2.session.font =
          d.session.font := by
  have sound := reached.sound
  refine ⟨runAll_edited sound, ?_, ?_⟩
  · intro edits edits' same
    apply font_runAll_eq sound edits edits'
    intro place old
    unfold PixelEdit.outcome
    rw [same place]
  · intro codepoint x y
    exact font_runAll_eq sound [⟨⟨codepoint, x, y⟩, .flip⟩, ⟨⟨codepoint, x, y⟩, .flip⟩] []
      (PixelEdit.outcome_flip_flip _)

theorem glyph_fresh (c : UInt8) : fresh.session.glyph c = .emptyDefault c 16 :=
  Sequence.glyph_blank 16 (by decide) c

/-- A pixel of the letter A that is set, flipped and ignored for its negative column, and
one of the letter B in between. -/
def dabs : List PixelEdit :=
  [⟨⟨65, 1, 2⟩, .write true⟩, ⟨⟨66, 1, 2⟩, .flip⟩, ⟨⟨65, 1, 2⟩, .flip⟩, ⟨⟨65, -1, 2⟩, .flip⟩]

theorem pixels_last_write_wins_dabs :
    fresh.Reachable ∧
      (∃ d', (runAll (dabs.map (·.command))).on fresh = (.ok [.done, .done, .done, .done], d') ∧
        (d'.session.glyph 65).pixel 1 2 = false ∧
        (d'.session.glyph 66).pixel 1 2 = !(fresh.session.glyph 66).pixel 1 2 ∧
        d'.session.history.undoEntries.length = 3) ∧
      ((runAll [.setPixel 65 1 2 true, .togglePixel 66 1 2]).on fresh).2.session.font =
        ((runAll [.togglePixel 66 1 2, .setPixel 65 1 2 true]).on fresh).2.session.font ∧
      ((runAll [.togglePixel 66 1 2, .togglePixel 66 1 2]).on fresh).2.session.font =
        fresh.session.font := by
  have reached : fresh.Reachable := .new .empty
  obtain ⟨scripts, reordered, restored⟩ := reached.pixels_last_write_wins
  refine ⟨reached, ?_, ?_, restored 66 1 2⟩
  · obtain ⟨d', ran, edited⟩ := scripts dabs
    have inside : ∀ c, c = 65 ∨ c = 66 → (fresh.session.glyph c).InBounds 1 2 := by
      rintro c (rfl | rfl)
      · rw [glyph_fresh]
        decide
      · rw [glyph_fresh]
        decide
    have counted : fresh.session.countInside dabs = 3 := by
      simp only [Session.countInside, Session.HasPixel, glyph_fresh, dabs]
      decide
    have cleared : ∀ old, PixelEdit.outcome dabs ⟨65, (1 : Nat), (2 : Nat)⟩ old = false := by decide
    have flipped : ∀ old, PixelEdit.outcome dabs ⟨66, (1 : Nat), (2 : Nat)⟩ old = !old := by decide
    refine ⟨d', ran, ?_, ?_, ?_⟩
    · exact (edited.pixels 65 1 2 (inside 65 (.inl rfl))).trans (cleared _)
    · exact (edited.pixels 66 1 2 (inside 66 (.inr rfl))).trans (flipped _)
    · rw [edited.undo_length, counted]
      rfl
  · have apart : (⟨65, 1, 2⟩ : Place) ≠ ⟨66, 1, 2⟩ := by decide
    have swapped := reordered _ _ (PixelEdit.sameAtEachPlace_swap
      (a := ⟨⟨65, 1, 2⟩, .write true⟩) (b := ⟨⟨66, 1, 2⟩, .flip⟩) apart [] [])
    simpa only [List.nil_append, List.map_cons, List.map_nil, PixelEdit.command] using swapped

end Desk

end BitmapFont
