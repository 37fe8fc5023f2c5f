import BitmapFont.Proofs.Edit.Batches
import BitmapFont.Proofs.Edit.Reachable

/-!
Where edits of glyphs show.

A session edits the glyphs of its active sequence, many in a batch or a single one.
`Session.ChangedAt` is what such an edit keeps: everything but the glyphs it touches.
Main facts:

* `Desk.run_transform_of_forall`, `Desk.run_transform_of_failsFirstAt`: a transform
  changes all glyphs of its range or, for the lowest failure, nothing;
* `Desk.run_transform_split`: a range can be transformed in two parts;
* `Desk.run_draws`: a request for one glyph changes that glyph only;
* `Desk.glyph_edits_pointwise`: all of this for every state of a session.
-/

namespace BitmapFont

/-! ### Sessions that differ in few glyphs -/

namespace Session

/-- What an edit keeps that writes to `touched` glyphs of the active sequence only. -/
structure ChangedAt (s : Session) (touched : UInt8 → Prop) (s' : Session) : Prop where
  name : s'.font.name = s.font.name
  version : s'.font.version = s.font.version
  flags : s'.font.flags = s.font.flags
  active : s'.active = s.active
  others : ∀ i, i ≠ s.active → s'.font.sequences[i]? = s.font.sequences[i]?
  metrics : s.activeSequence.SameMetrics s'.activeSequence
  glyphs : ∀ c, ¬ touched c → s'.glyph c = s.glyph c

variable {s a b : Session} {touched touched' : UInt8 → Prop}

theorem ChangedAt.refl (s : Session) (touched : UInt8 → Prop) : s.ChangedAt touched s :=
  ⟨rfl, rfl, rfl, rfl, fun _ _ => rfl, ⟨rfl, rfl, rfl⟩, fun _ _ => rfl⟩

theorem ChangedAt.trans (first : s.ChangedAt touched a) (second : a.ChangedAt touched' b) :
    s.ChangedAt (fun c => touched c ∨ touched' c) b where
  name := second.name.trans first.name
  version := second.version.trans first.version
  flags := second.flags.trans first.flags
  active := second.active.trans first.active
  others := by
    intro i other
    have other' : i ≠ a.active := by rwa [first.active]
    exact (second.others i other').trans (first.others i other)
  metrics := first.metrics.trans second.metrics
  glyphs := by
    intro c untouched
    have outside := not_or.mp untouched
    exact (second.glyphs c outside.2).trans (first.glyphs c outside.1)

theorem getElem?_active (s : Session) : s.font.sequences[s.active]? = some s.activeSequence :=
  List.getElem?_eq_getElem s.active_lt

/-- Two edits that leave the same glyphs in the active sequence leave the same
sequences. -/
theorem ChangedAt.sequences_eq (left : s.ChangedAt touched a) (right : s.ChangedAt touched' b)
    (same : ∀ c, a.glyph c = b.glyph c) : a.font.sequences = b.font.sequences := by
  have active : a.activeSequence = b.activeSequence := by
    apply Sequence.ext_glyphs
    · rw [left.metrics.height, right.metrics.height]
    · rw [left.metrics.baseline, right.metrics.baseline]
    · rw [left.metrics.pointSize, right.metrics.pointSize]
    · exact same
  apply List.ext_getElem?
  intro i
  by_cases index : i = s.active
  · have atLeft := a.getElem?_active
    have atRight := b.getElem?_active
    rw [left.active] at atLeft
    rw [right.active] at atRight
    rw [index, atLeft, atRight, active]
  · rw [left.others i index, right.others i index]

theorem activeSequence_committed (s : Session) (description : String) (q : Sequence) :
    (s.committed description (s.replaceActive q)).activeSequence = q :=
  List.getElem_set_self _

theorem changedAt_committed {q : Sequence} (metrics : s.activeSequence.SameMetrics q)
    (glyphs : ∀ c, ¬ touched c → q.glyph c = s.glyph c) (description : String) :
    s.ChangedAt touched (s.committed description (s.replaceActive q)) where
  name := rfl
  version := rfl
  flags := rfl
  active := rfl
  others := by
    intro i other
    exact List.getElem?_set_ne (Ne.symm other)
  metrics := by rwa [activeSequence_committed]
  glyphs := by
    intro c untouched
    rw [glyph, activeSequence_committed]
    exact glyphs c untouched

/-- What a batch transform makes of a session if it fails nowhere in its range. -/
structure Transformed (s : Session) (range : CodepointRange) (t : Batch) (s' : Session) : Prop
    extends s.ChangedAt range.Contains s' where
  images : ∀ c, range.Contains c → t.outcome s.activeSequence c = .ok (s'.glyph c)

end Session

namespace Desk

variable {d : Desk} {range : CodepointRange} {t : Batch}

theorem run_transform (d : Desk) (range : CodepointRange) (t : Batch) :
    (run (.transform range t)).on d =
      match t.sequence range d.session.activeSequence with
      | .error cause => (.error cause, d)
      | .ok q =>
        (.ok .done,
          d.withSession (d.session.committed t.description (d.session.replaceActive q))) := by
  rw [run, on_onSession_of_commit (Session.on_transform d.session range t)]
  cases t.sequence range d.session.activeSequence with
  | error cause => rfl
  | ok q => rfl

/-- A transform that fails nowhere in a range changes every glyph of the range, and
nothing else. -/
theorem run_transform_of_forall (named : t.width? ≠ some 0)
    (images : ∀ c, range.Contains c → ∃ g, t.outcome d.session.activeSequence c = .ok g) :
    ∃ d', (run (.transform range t)).on d = (.ok .done, d') ∧
      d.session.Transformed range t d'.session := by
  obtain ⟨q, done, metrics, inside, outside⟩ := Batch.sequence_of_forall named images
  have changed := Session.changedAt_committed metrics outside t.description
  rw [run_transform, done]
  refine ⟨_, rfl, changed, ?_⟩
  intro c contained
  change _ = Except.ok (Sequence.glyph (Session.activeSequence _) c)
  rw [withSession, Session.activeSequence_committed]
  exact inside c contained

/-- A transform that fails in a range reports the lowest failure and changes nothing. -/
theorem run_transform_of_failsFirstAt (named : t.width? ≠ some 0) {codepoint : UInt8}
    {cause : FontError} (fails : t.FailsFirstAt range d.session.activeSequence codepoint cause) :
    (run (.transform range t)).on d = (.error cause, d) := by
  rw [run_transform, Batch.sequence_of_failsFirstAt named fails]

theorem transformed_of_run {reply : Reply} {d' : Desk}
    (done : (run (.transform range t)).on d = (.ok reply, d')) :
    t.width? ≠ some 0 ∧ d.session.Transformed range t d'.session := by
  have accepted := done
  rw [run_transform] at accepted
  cases result : t.sequence range d.session.activeSequence with
  | error cause =>
      rw [result] at accepted
      cases accepted
  | ok q =>
      obtain ⟨named, images⟩ := Batch.forall_of_sequence result
      obtain ⟨d'', ran, transformed⟩ := run_transform_of_forall named images
      rw [done] at ran
      cases ran
      exact ⟨named, transformed⟩

/-- A range can be transformed in two parts. -/
theorem run_transform_split {whole first second : CodepointRange} {reply : Reply} {d' : Desk}
    (start : first.first = whole.first) (next : second.first = first.last + 1)
    (stop : second.last = whole.last)
    (done : (run (.transform whole t)).on d = (.ok reply, d')) :
    ∃ d₁ d₂, (run (.transform first t)).on d = (.ok .done, d₁) ∧
      (run (.transform second t)).on d₁ = (.ok .done, d₂) ∧
      d₂.session.font.sequences = d'.session.font.sequences := by
  have firstOrdered := first.ordered
  have secondOrdered := second.ordered
  have inFirst : ∀ c, first.Contains c → whole.Contains c ∧ ¬ second.Contains c := by
    intro c contained
    simp only [CodepointRange.Contains] at contained ⊢
    omega
  have inSecond : ∀ c, second.Contains c → whole.Contains c ∧ ¬ first.Contains c := by
    intro c contained
    simp only [CodepointRange.Contains] at contained ⊢
    omega
  have inWhole : ∀ c, whole.Contains c → first.Contains c ∨ second.Contains c := by
    intro c contained
    simp only [CodepointRange.Contains] at contained ⊢
    omega
  obtain ⟨named, transformed⟩ := transformed_of_run done
  have images₁ : ∀ c, first.Contains c → ∃ g, t.outcome d.session.activeSequence c = .ok g :=
    fun c contained => ⟨_, transformed.images c (inFirst c contained).1⟩
  obtain ⟨d₁, ran₁, transformed₁⟩ := run_transform_of_forall named images₁
  -- The first part leaves the glyphs of the second and the height as they were.
  have kept : ∀ c, second.Contains c →
      t.outcome d₁.session.activeSequence c = t.outcome d.session.activeSequence c := by
    intro c contained
    have height := transformed₁.metrics.height
    have glyph := transformed₁.glyphs c (inSecond c contained).2
    simp only [Session.glyph] at glyph
    simp only [Batch.outcome, height, glyph]
  have images₂ : ∀ c, second.Contains c → ∃ g, t.outcome d₁.session.activeSequence c = .ok g :=
    fun c contained => ⟨_, (kept c contained).trans (transformed.images c (inSecond c contained).1)⟩
  obtain ⟨d₂, ran₂, transformed₂⟩ := run_transform_of_forall named images₂
  refine ⟨d₁, d₂, ran₁, ran₂, ?_⟩
  have both := transformed₁.toChangedAt.trans transformed₂.toChangedAt
  refine both.sequences_eq transformed.toChangedAt ?_
  intro c
  by_cases later : second.Contains c
  · have image := transformed₂.images c later
    rw [kept c later, transformed.images c (inSecond c later).1] at image
    exact (Except.ok.inj image).symm
  · rw [transformed₂.glyphs c later]
    by_cases earlier : first.Contains c
    · have image := transformed₁.images c earlier
      rw [transformed.images c (inFirst c earlier).1] at image
      exact (Except.ok.inj image).symm
    · have outside : ¬ whole.Contains c := fun contained => (inWhole c contained).elim earlier later
      rw [transformed₁.glyphs c earlier, transformed.glyphs c outside]

end Desk

/-! ### Requests for one glyph -/

/-- The codepoint that a request for a single glyph writes to. -/
def Command.target? : Command → Option UInt8
  | setPixel codepoint .. | togglePixel codepoint .. => some codepoint
  | clearGlyph codepoint | resizeGlyphWidth codepoint _ => some codepoint
  | cloneGlyph _ target => some target
  | _ => none

/-- A glyph with one pixel painted over, if it has that pixel. -/
structure Glyph.Painted (g : Glyph) (x y : Int) (value : Bool) (g' : Glyph) : Prop where
  width : g'.width = g.width
  pixels : ∀ i j : Nat, g'.pixel i j =
    if i = x ∧ j = y ∧ g.InBounds i j then value else g.pixel i j

/-- What a request for a single glyph makes of it. -/
def Command.Draws (s : Session) (g : Glyph) : Command → Prop
  | setPixel codepoint x y value => (s.glyph codepoint).Painted x y value g
  | togglePixel codepoint x y =>
    (s.glyph codepoint).Painted x y (!(s.glyph codepoint).pixel x.toNat y.toNat) g
  | clearGlyph codepoint => g.width = (s.glyph codepoint).width ∧ ∀ i j, g.pixel i j = false
  | cloneGlyph source _ =>
    g.width = (s.glyph source).width ∧ ∀ i j, g.pixel i j = (s.glyph source).pixel i j
  | resizeGlyphWidth codepoint width => g.width = width ∧
    ∀ i j, g.pixel i j = (decide (i < width.toNat) && (s.glyph codepoint).pixel i j)
  | _ => True

theorem Glyph.painted_setPixel {g : Glyph} {x y : Int} {column row : Nat}
    (found : Session.position? g x y = some (column, row)) (value : Bool) :
    g.Painted x y value (g.setPixel column row value) where
  width := setPixel_width ..
  pixels := by
    unfold Session.position? at found
    split at found
    · rename_i inside
      cases found
      intro i j
      rw [pixel_setPixel value inside.2.2]
      have same : (i = x.toNat ∧ j = y.toNat) ↔ (i = x ∧ j = y ∧ g.InBounds i j) := by
        constructor
        · rintro ⟨rfl, rfl⟩
          exact ⟨by omega, by omega, inside.2.2⟩
        · rintro ⟨column, row, -⟩
          exact ⟨by omega, by omega⟩
      simp only [same]
    · cases found

/-- A pixel that the glyph does not have is not painted. -/
theorem Glyph.painted_self {g : Glyph} {x y : Int} (outside : Session.position? g x y = none)
    (value : Bool) : g.Painted x y value g where
  width := rfl
  pixels := by
    intro i j
    rw [if_neg]
    rintro ⟨rfl, rfl, inside⟩
    rw [Session.position?, if_pos ⟨by omega, by omega, inside⟩] at outside
    cases outside

namespace Session

variable {s : Session} {codepoint : UInt8} {g : Glyph}
  {change : Glyph → Except FontError Glyph}

/-- A glyph of the right height takes the place of another. -/
theorem exists_changedGlyph (drawn : change (s.glyph codepoint) = .ok g)
    (fits : g.height = s.activeSequence.height) :
    ∃ q, s.changedGlyph codepoint change = .ok q ∧ s.activeSequence.SameMetrics q ∧
      q.glyph codepoint = g.withCodepoint codepoint ∧
      ∀ c, c ≠ codepoint → q.glyph c = s.glyph c := by
  have stored := s.activeSequence.glyph_withGlyph codepoint g fits
  refine ⟨s.activeSequence.withGlyph codepoint g fits, ?_, ⟨rfl, rfl, rfl⟩, ?_, ?_⟩
  · rw [changedGlyph, drawn]
    exact SequenceCommand.setGlyph_of_eq codepoint fits
  · rw [stored, if_pos rfl]
  · intro c other
    rw [stored, if_neg other]
    rfl

end Session

namespace Desk

variable {d : Desk} {codepoint : UInt8} {g : Glyph}

/-- A request that replaces one glyph by another of its height changes that glyph, and
nothing else. -/
theorem on_changeGlyph_of_fits {c : Change Session Unit} {description : String}
    {change : Glyph → Except FontError Glyph}
    (commits : c.on d.session = d.session.commit description
      ((d.session.changedGlyph codepoint change).map fun q => ((), d.session.replaceActive q)))
    (drawn : change (d.session.glyph codepoint) = .ok g)
    (fits : g.height = d.session.activeSequence.height) :
    ∃ d', (onSession (fun _ => .done) c).on d = (.ok .done, d') ∧
      d.session.ChangedAt (· = codepoint) d'.session ∧
      d'.session.glyph codepoint = g.withCodepoint codepoint := by
  obtain ⟨q, changed, metrics, target, others⟩ := Session.exists_changedGlyph drawn fits
  rw [on_onSession_of_commit commits, changed]
  refine ⟨_, rfl, Session.changedAt_committed metrics others description, ?_⟩
  rw [← target]
  change Sequence.glyph (Session.activeSequence _) codepoint = _
  rw [withSession, Session.activeSequence_committed]

theorem run_setPixel_painted (d : Desk) (codepoint : UInt8) (x y : Int) (value : Bool) :
    ∃ d', (run (.setPixel codepoint x y value)).on d = (.ok .done, d') ∧
      d.session.ChangedAt (· = codepoint) d'.session ∧
      (d.session.glyph codepoint).Painted x y value (d'.session.glyph codepoint) := by
  cases position : Session.position? (d.session.glyph codepoint) x y with
  | none =>
      have outside := Session.position?_eq_none_iff.mp position
      exact ⟨d, run_setPixel_outside outside value, .refl _ _, Glyph.painted_self position value⟩
  | some place =>
      obtain ⟨column, row⟩ := place
      obtain ⟨d', ran, changed, painted⟩ := on_changeGlyph_of_fits
        (Session.on_setPixel_of_some position value) rfl
        (by rw [Glyph.setPixel_height]; exact Sequence.glyph_height _ _)
      refine ⟨d', ran, changed, ?_⟩
      have pixels := Glyph.painted_setPixel position value
      rw [painted]
      exact ⟨pixels.width, pixels.pixels⟩

theorem run_togglePixel_painted (d : Desk) (codepoint : UInt8) (x y : Int) :
    ∃ d', (run (.togglePixel codepoint x y)).on d = (.ok .done, d') ∧
      d.session.ChangedAt (· = codepoint) d'.session ∧
      (d.session.glyph codepoint).Painted x y
        (!(d.session.glyph codepoint).pixel x.toNat y.toNat) (d'.session.glyph codepoint) := by
  cases position : Session.position? (d.session.glyph codepoint) x y with
  | none =>
      have outside := Session.position?_eq_none_iff.mp position
      exact ⟨d, run_togglePixel_outside outside, .refl _ _, Glyph.painted_self position _⟩
  | some place =>
      obtain ⟨column, row⟩ := place
      have toggled : (run (.togglePixel codepoint x y)).on d =
          (run (.setPixel codepoint x y
            !(d.session.glyph codepoint).pixel column row)).on d := by
        rw [run, run, on_onSession, on_onSession, Session.on_togglePixel_of_some position]
      have named : x.toNat = column ∧ y.toNat = row := by
        unfold Session.position? at position
        split at position
        · cases position
          exact ⟨rfl, rfl⟩
        · cases position
      rw [toggled, named.1, named.2]
      exact run_setPixel_painted d codepoint x y _

theorem run_resizeGlyphWidth_zero (d : Desk) (codepoint : UInt8) :
    (run (.resizeGlyphWidth codepoint 0)).on d = (.error (.argument (.glyphWidth 0)), d) := by
  rw [run, on_onSession, Session.resizeGlyphWidth, Session.on_changeGlyph]
  rfl

/-- A request for a single glyph draws that glyph, and changes nothing else. -/
theorem run_draws {command : Command} (target : command.target? = some codepoint)
    (sized : command ≠ .resizeGlyphWidth codepoint 0) :
    ∃ d', (run command).on d = (.ok .done, d') ∧
      d.session.ChangedAt (· = codepoint) d'.session ∧
      command.Draws d.session (d'.session.glyph codepoint) := by
  have height : ∀ c, (d.session.glyph c).height = d.session.activeSequence.height :=
    d.session.activeSequence.glyph_height
  cases command with
  | setPixel codepoint' x y value =>
      cases target
      exact run_setPixel_painted d codepoint x y value
  | togglePixel codepoint' x y =>
      cases target
      exact run_togglePixel_painted d codepoint x y
  | clearGlyph codepoint' =>
      cases target
      obtain ⟨d', ran, changed, drawn⟩ := on_changeGlyph_of_fits (d := d)
        (Session.on_changeGlyph d.session "Clear glyph" codepoint fun g =>
          .ok (.blank g.codepoint g.width g.height)) rfl
        ((Glyph.blank_height _ _ (Glyph.height_pos _)).trans (height codepoint))
      refine ⟨d', ran, changed, ?_⟩
      rw [drawn]
      exact ⟨Glyph.atLeastOne_width _, fun i j => Glyph.pixel_blank _ _ _ i j⟩
  | cloneGlyph source target' =>
      cases target
      obtain ⟨d', ran, changed, drawn⟩ := on_changeGlyph_of_fits (d := d)
        (Session.on_cloneGlyph d.session source codepoint) rfl (height source)
      refine ⟨d', ran, changed, ?_⟩
      rw [drawn]
      exact ⟨rfl, fun _ _ => rfl⟩
  | resizeGlyphWidth codepoint' width =>
      cases target
      have pos : 0 < width.toNat := toNat_pos_iff.mpr fun zero => sized (by rw [zero])
      obtain ⟨d', ran, changed, drawn⟩ := on_changeGlyph_of_fits (d := d)
        (Session.on_changeGlyph d.session "Resize glyph" codepoint (·.setWidth width))
        (Glyph.setWidth_eq_ok pos)
        ((Glyph.sameRows_fromFn _ width _).height.trans (height codepoint))
      refine ⟨d', ran, changed, ?_⟩
      rw [drawn]
      refine ⟨atLeastOne_of_pos pos, ?_⟩
      intro i j
      rw [Glyph.pixel_withCodepoint, Glyph.pixel_fromFn, atLeastOne_of_pos pos]
      by_cases row : j < (d.session.glyph codepoint).height.toNat
      · simp [row]
      · simp [Glyph.pixel_of_le_y (Nat.not_lt.mp row)]
  | _ => cases target

/-- In every state: a batch transform whose width is not zero replaces the glyphs of
its range by their images and changes nothing else if it fails at none of them, and
else reports the failure at the lowest codepoint and changes nothing. Where it succeeds
it can also be made in two parts. A request for a single glyph changes no other. -/
theorem glyph_edits_pointwise (d : Desk) :
    (∀ range t, (∀ width, t.width? = some width → 1 ≤ width.toNat) →
      ((∀ c, range.Contains c → ∃ g, t.outcome d.session.activeSequence c = .ok g) →
        ∃ d', (run (.transform range t)).on d = (.ok .done, d') ∧
          d.session.Transformed range t d'.session) ∧
      ((∃ c cause, range.Contains c ∧ t.outcome d.session.activeSequence c = .error cause) →
        ∃ c cause, t.FailsFirstAt range d.session.activeSequence c cause ∧
          (run (.transform range t)).on d = (.error cause, d))) ∧
    (∀ whole first second t reply d', first.first = whole.first →
      second.first = first.last + 1 → second.last = whole.last →
      (run (.transform whole t)).on d = (.ok reply, d') →
        ∃ d₁ d₂, (run (.transform first t)).on d = (.ok .done, d₁) ∧
          (run (.transform second t)).on d₁ = (.ok .done, d₂) ∧
          d₂.session.font.sequences = d'.session.font.sequences) ∧
    (∀ command codepoint, command.target? = some codepoint →
      command ≠ .resizeGlyphWidth codepoint 0 →
        ∃ d', (run command).on d = (.ok .done, d') ∧
          d.session.ChangedAt (· = codepoint) d'.session ∧
          command.Draws d.session (d'.session.glyph codepoint)) ∧
    ∀ codepoint, (run (.resizeGlyphWidth codepoint 0)).on d =
      (.error (.argument (.glyphWidth 0)), d) := by
  refine ⟨?_, ?_, ?_, run_resizeGlyphWidth_zero d⟩
  · intro range t sized
    have named : t.width? ≠ some 0 := fun zero => absurd (sized 0 zero) (by decide)
    constructor
    · intro images
      exact run_transform_of_forall named images
    · rintro ⟨c, cause, inside, failed⟩
      obtain ⟨b, cause', fails⟩ := Batch.exists_failsFirstAt inside failed
      exact ⟨b, cause', fails, run_transform_of_failsFirstAt named fails⟩
  · intro whole first second t reply d' start next stop done
    exact run_transform_split start next stop done
  · intro command codepoint target sized
    exact run_draws target sized

/-- A new session. -/
def fresh : Desk :=
  { files := .empty, session := .new }

/-- A new session with the widest possible glyph under the letter A. -/
def wide : Desk :=
  ((run (.resizeGlyphWidth 65 255)).on fresh).2

theorem width_fresh (c : UInt8) : (fresh.session.glyph c).width.toNat ≤ 8 := by
  change ((Sequence.blank 16 12 16 _).glyph c).width.toNat ≤ 8
  rw [Sequence.glyph_blank]
  change (atLeastOne (if c = spaceCodepoint then 8 else 6)).toNat ≤ 8
  split
  · decide
  · decide

theorem changedAt_wide :
    fresh.session.ChangedAt (· = 65) wide.session ∧ (wide.session.glyph 65).width = 255 := by
  have target : (Command.resizeGlyphWidth 65 255).target? = some 65 := rfl
  obtain ⟨d', ran, changed, width, -⟩ := run_draws (d := fresh) target (by simp)
  have same : wide = d' := congrArg Prod.snd ran
  exact same ▸ ⟨changed, width⟩

theorem outcome_bold_wide :
    Batch.bold.outcome wide.session.activeSequence 65 = .error (.argument (.glyphWidth 256)) := by
  change (wide.session.glyph 65).bold = _
  unfold Glyph.bold
  rw [changedAt_wide.2, checkWidth_of_gt (by decide)]
  rfl

theorem outcome_bold_wide_of_ne {c : UInt8} (other : c ≠ 65) :
    ∃ g, Batch.bold.outcome wide.session.activeSequence c = .ok g := by
  have narrow := width_fresh c
  change ∃ g, (wide.session.glyph c).bold = .ok g
  rw [changedAt_wide.1.glyphs c other]
  unfold Glyph.bold
  rw [checkWidth_of_le (by omega) (by omega)]
  exact ⟨_, rfl⟩

theorem glyph_edits_pointwise_wide :
    (run (.transform ⟨60, 70, by decide⟩ .bold)).on wide =
        (.error (.argument (.glyphWidth 256)), wide) ∧
      (∃ d', (run (.clearGlyph 65)).on wide = (.ok .done, d') ∧
        wide.session.ChangedAt (· = 65) d'.session) ∧
      ∃ d' d₁ d₂ : Desk, wide.session.Transformed ⟨-3, 64, by decide⟩ .bold d'.session ∧
        (run (.transform ⟨-3, 40, by decide⟩ .bold)).on wide = (.ok .done, d₁) ∧
        (run (.transform ⟨41, 64, by decide⟩ .bold)).on d₁ = (.ok .done, d₂) ∧
        d₂.session.font.sequences = d'.session.font.sequences := by
  obtain ⟨batches, splits, draws, -⟩ := glyph_edits_pointwise wide
  have sized : ∀ width, Batch.bold.width? = some width → 1 ≤ width.toNat := by
    intro width named
    cases named
  refine ⟨?_, ?_, ?_⟩
  · obtain ⟨c, cause, fails, refused⟩ := (batches ⟨60, 70, by decide⟩ .bold sized).2
      ⟨65, _, by decide, outcome_bold_wide⟩
    -- No other glyph is too wide, so this is the lowest failure.
    have place : c = 65 := by
      apply Classical.byContradiction
      intro other
      obtain ⟨g, ok⟩ := outcome_bold_wide_of_ne other
      rw [fails.failed] at ok
      cases ok
    have reported := fails.failed
    rw [place, outcome_bold_wide] at reported
    cases reported
    exact refused
  · obtain ⟨d', ran, changed, -⟩ := draws (.clearGlyph 65) 65 rfl (by simp)
    exact ⟨d', ran, changed⟩
  · have images : ∀ c, CodepointRange.Contains ⟨-3, 64, by decide⟩ c →
        ∃ g, Batch.bold.outcome wide.session.activeSequence c = .ok g := by
      intro c inside
      apply outcome_bold_wide_of_ne
      rintro rfl
      exact absurd inside (by decide)
    obtain ⟨d', done, transformed⟩ := (batches ⟨-3, 64, by decide⟩ .bold sized).1 images
    obtain ⟨d₁, d₂, first, second, same⟩ := splits ⟨-3, 64, by decide⟩ ⟨-3, 40, by decide⟩
      ⟨41, 64, by decide⟩ .bold .done d' rfl rfl rfl done
    exact ⟨d', d₁, d₂, transformed, first, second, same⟩

end Desk

end BitmapFont
