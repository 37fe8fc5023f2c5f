import BitmapFont.Font.Command
import BitmapFont.FontStream.Decode
import BitmapFont.Proofs.Font.Storing
import BitmapFont.Proofs.Font.WellFormed

/-!
What a font does with a request.

Requests are carried out in place. The lemmas `on_run` say that none is left half
done: each comes to a calculation from the untouched font (`SequenceCommand.result`,
`FontCommand.result`), whose failure leaves nothing behind. When that is, `Refused`
says, and `Effect` what becomes of the font else. Main facts:

* `SequenceCommand.on_run`: among others, several glyphs are stored all or none;
* `FontCommand.allOrNothing`: what is refused changes nothing, and what is not has
  its effect;
* `Font.Reachable.requests_all_or_nothing`: every font that requests lead to is well
  formed, and those that were refused need not have been made.
-/

namespace BitmapFont

/-! ### Requests to a sequence -/

namespace SequenceCommand

/-- What a request makes of a sequence. -/
def result (s : Sequence) : SequenceCommand → Except FontError Sequence
  | setBaseline baseline => s.setBaseline baseline
  | setPointSize pointSize => .ok (s.setPointSize pointSize)
  | setGlyph codepoint glyph => s.setGlyph codepoint glyph
  | modifyGlyph codepoint f => s.modifyGlyph codepoint f
  | replaceGlyphs glyphs => s.replaceGlyphs glyphs
  | copyGlyphsFrom source => .ok (s.copyGlyphsFrom source)

/-- When a sequence refuses a request. -/
def Refused (s : Sequence) : SequenceCommand → Prop
  | setBaseline baseline => s.height.toNat ≤ baseline.toNat
  | setPointSize _ => False
  | setGlyph _ glyph => glyph.height ≠ s.height
  | modifyGlyph codepoint f => (f (s.glyph codepoint)).height ≠ s.height
  | replaceGlyphs glyphs => ∃ g ∈ glyphs, g.height ≠ s.height
  | copyGlyphsFrom _ => False

/-- What becomes of a sequence that does not refuse a request. -/
def Effect (s t : Sequence) : SequenceCommand → Prop
  | setBaseline baseline =>
    t.baseline = baseline ∧ t.height = s.height ∧ t.pointSize = s.pointSize ∧ t.glyphs = s.glyphs
  | setPointSize pointSize =>
    t.pointSize = pointSize ∧ t.height = s.height ∧ t.baseline = s.baseline ∧ t.glyphs = s.glyphs
  | setGlyph codepoint glyph =>
    s.SameMetrics t ∧ ∀ c, t.glyph c =
      if c = codepoint then glyph.withCodepoint codepoint else s.glyph c
  | modifyGlyph codepoint f =>
    s.SameMetrics t ∧ ∀ c, t.glyph c =
      if c = codepoint then (f (s.glyph codepoint)).withCodepoint codepoint else s.glyph c
  | replaceGlyphs glyphs =>
    s.SameMetrics t ∧ ∀ c, t.glyph c =
      ((glyphs.filter fun g => g.codepoint = c).getLast?).getD (s.glyph c)
  | copyGlyphsFrom source =>
    t.height = source.height ∧ t.baseline = source.baseline ∧ t.glyphs = source.glyphs ∧
      t.pointSize = s.pointSize

section
variable {s t : Sequence}

/-- A change that only replaces the sequence by what was calculated from it. -/
theorem on_set_calculated (calculate : Sequence → Except FontError Sequence) (s : Sequence) :
    (do set (← calculate (← get)) : Change Sequence Unit).on s =
      match calculate s with
      | .error cause => (.error cause, s)
      | .ok t => (.ok (), t) := by
  simp only [Change.on_bind, Change.on_get, Change.on_lift]
  cases calculate s with
  | error cause => rfl
  | ok t => rfl

theorem on_checkHeight (g : Glyph) (s : Sequence) :
    (checkHeight g).on s =
      if g.height = s.height then (.ok (), s) else (.error (s.heightMismatch g), s) := by
  simp only [checkHeight, Change.on_bind, Change.on_get]
  split
  · rfl
  · rfl

/-- The first glyph that does not fit ends the checks. They write nothing. -/
theorem on_checks (glyphs : List Glyph) (s : Sequence) :
    (forM glyphs checkHeight).on s =
      match glyphs.find? fun g => g.height != s.height with
      | some bad => (.error (s.heightMismatch bad), s)
      | none => (.ok (), s) := by
  induction glyphs with
  | nil => rfl
  | cons g rest ih =>
      rw [List.forM_cons, Change.on_bind, on_checkHeight]
      by_cases fits : g.height = s.height
      · rw [if_pos fits, List.find?_cons_of_neg (by simp [fits])]
        exact ih
      · rw [if_neg fits, List.find?_cons_of_pos (by simp [fits])]

theorem on_inserts (glyphs : List Glyph) (s : Sequence) :
    (forM glyphs insert).on s = (.ok (), glyphs.foldl Sequence.insert s) := by
  induction glyphs generalizing s with
  | nil => rfl
  | cons g rest ih =>
      rw [List.forM_cons, Change.on_bind]
      exact ih (s.insert g)

/-- A request replaces the sequence by its result, or else leaves it alone. -/
theorem on_run (command : SequenceCommand) (s : Sequence) :
    command.run.on s =
      match command.result s with
      | .error cause => (.error cause, s)
      | .ok t => (.ok (), t) := by
  cases command with
  | setBaseline baseline => exact on_set_calculated (·.setBaseline baseline) s
  | setPointSize pointSize => rfl
  | setGlyph codepoint glyph => exact on_set_calculated (·.setGlyph codepoint glyph) s
  | modifyGlyph codepoint f => exact on_set_calculated (·.modifyGlyph codepoint f) s
  | replaceGlyphs glyphs =>
      simp only [run, result, Sequence.replaceGlyphs, Change.on_bind, on_checks]
      cases glyphs.find? fun g => g.height != s.height with
      | some bad => rfl
      | none => exact on_inserts glyphs s
  | copyGlyphsFrom source => rfl

theorem setGlyph_of_ne (codepoint : UInt8) {g : Glyph} (mismatch : g.height ≠ s.height) :
    s.setGlyph codepoint g = .error (s.heightMismatch g) :=
  dif_neg mismatch

theorem setGlyph_of_eq (codepoint : UInt8) {g : Glyph} (fits : g.height = s.height) :
    s.setGlyph codepoint g = .ok (s.withGlyph codepoint g fits) :=
  dif_pos fits

theorem replaceGlyphs_of_mem {glyphs : List Glyph} {g : Glyph} (mem : g ∈ glyphs)
    (mismatch : g.height ≠ s.height) : ∃ cause, s.replaceGlyphs glyphs = .error cause := by
  unfold Sequence.replaceGlyphs
  cases found : glyphs.find? fun g => g.height != s.height with
  | some bad => exact ⟨_, rfl⟩
  | none => exact absurd (List.find?_eq_none.mp found g mem) (by simp [mismatch])

theorem replaceGlyphs_of_forall {glyphs : List Glyph} (fits : ∀ g ∈ glyphs, g.height = s.height) :
    s.replaceGlyphs glyphs = .ok (glyphs.foldl Sequence.insert s) := by
  have none : (glyphs.find? fun g => g.height != s.height) = none := by
    apply List.find?_eq_none.mpr
    intro g mem
    simp [fits g mem]
  unfold Sequence.replaceGlyphs
  rw [none]

theorem result_of_refused {command : SequenceCommand} (refused : command.Refused s) :
    ∃ cause, command.result s = .error cause := by
  cases command with
  | setBaseline baseline => exact ⟨_, Sequence.setBaseline_of_le refused⟩
  | setPointSize pointSize => exact absurd refused id
  | setGlyph codepoint glyph => exact ⟨_, setGlyph_of_ne codepoint refused⟩
  | modifyGlyph codepoint f => exact ⟨_, setGlyph_of_ne codepoint refused⟩
  | replaceGlyphs glyphs =>
      obtain ⟨g, mem, mismatch⟩ := refused
      exact replaceGlyphs_of_mem mem mismatch
  | copyGlyphsFrom source => exact absurd refused id

theorem result_of_not_refused {command : SequenceCommand} (accepted : ¬ command.Refused s) :
    ∃ t, command.result s = .ok t ∧ command.Effect s t := by
  cases command with
  | setBaseline baseline =>
      have below := Nat.not_le.mp accepted
      exact ⟨_, Sequence.setBaseline_of_lt below, rfl, rfl, rfl, rfl⟩
  | setPointSize pointSize => exact ⟨_, rfl, rfl, rfl, rfl, rfl⟩
  | setGlyph codepoint glyph =>
      have fits := Classical.not_not.mp accepted
      exact ⟨_, setGlyph_of_eq codepoint fits, ⟨rfl, rfl, rfl⟩,
        s.glyph_withGlyph codepoint glyph fits⟩
  | modifyGlyph codepoint f =>
      have fits := Classical.not_not.mp accepted
      exact ⟨_, setGlyph_of_eq codepoint fits, ⟨rfl, rfl, rfl⟩, s.glyph_withGlyph codepoint _ fits⟩
  | replaceGlyphs glyphs =>
      have fits : ∀ g ∈ glyphs, g.height = s.height := by
        intro g mem
        apply Classical.byContradiction
        intro mismatch
        exact accepted ⟨g, mem, mismatch⟩
      exact ⟨_, replaceGlyphs_of_forall fits, s.sameMetrics_foldl_insert glyphs,
        Sequence.glyph_foldl_insert fits⟩
  | copyGlyphsFrom source => exact ⟨_, rfl, rfl, rfl, rfl, rfl⟩

end

end SequenceCommand

/-! ### Requests to a font -/

/-- A font that differs from another in its sequences only. -/
structure Font.Becomes (f : Font) (sequences : List Sequence) (g : Font) : Prop where
  sequences : g.sequences = sequences
  name : g.name = f.name
  version : g.version = f.version
  flags : g.flags = f.flags

theorem Font.setSequence_self {f : Font} {index : Nat} {s : Sequence}
    (found : f.sequence? index = some s) : f.setSequence index s = f := by
  have same : f.sequences.set index s = f.sequences := by
    obtain ⟨inside, rfl⟩ := List.getElem?_eq_some_iff.mp found
    exact List.set_getElem_self inside
  unfold setSequence
  simp only [same]

namespace FontCommand

/-- What a request answers and makes of a font. -/
def result (f : Font) : FontCommand → Except FontError (FontReply × Font)
  | setName name => (f.setName name).map fun g => (.done, g)
  | push sequence => .ok (.index f.sequenceCount, f.push sequence)
  | remove index => (f.removeSequence index).map fun (g, removed) => (.removed removed, g)
  | restore sequences => (f.restoreSequences sequences).map fun g => (.done, g)
  | edit index command =>
    match f.sequence? index with
    | none => .ok (.noSequence, f)
    | some s => (command.result s).map fun t => (.done, f.setSequence index t)

/-- When a font refuses a request. -/
def Refused (f : Font) : FontCommand → Prop
  | setName name => 28 < (storablePart name.toList).length
  | push _ => False
  | remove index => f.sequences.length ≤ index ∨ f.sequences.length = 1
  | restore sequences => sequences = []
  | edit index command => ∃ s, f.sequences[index]? = some s ∧ command.Refused s

/-- What a font answers and becomes that does not refuse a request. -/
def Effect (f : Font) (reply : FontReply) (g : Font) : FontCommand → Prop
  | setName name =>
    reply = .done ∧ ∃ stored : FontName,
      stored.chars = storablePart name.toList ∧ g = { f with name := stored }
  | push sequence => reply = .index f.sequences.length ∧ f.Becomes (f.sequences ++ [sequence]) g
  | remove index => ∃ removed, f.sequences[index]? = some removed ∧ reply = .removed removed ∧
    f.Becomes (f.sequences.eraseIdx index) g
  | restore sequences => reply = .done ∧ f.Becomes sequences g
  | edit index command => (f.sequences[index]? = none ∧ reply = .noSequence ∧ g = f) ∨
    ∃ s t, f.sequences[index]? = some s ∧ command.Effect s t ∧ reply = .done ∧
      f.Becomes (f.sequences.set index t) g

section
variable {f : Font}

theorem on_runAt (index : Nat) (command : SequenceCommand) (f : Font) :
    (runAt index command).on f =
      match (edit index command).result f with
      | .error cause => (.error cause, f)
      | .ok (reply, g) => (.ok reply, g) := by
  simp only [runAt, result, Change.on_bind, Change.on_get]
  cases found : f.sequence? index with
  | none => rfl
  | some s =>
      simp only [Change.on_bind, Change.on_inside, SequenceCommand.on_run]
      cases command.result s with
      | error cause =>
          -- The failed request has left the sequence alone, and it is put back.
          simp only [Except.map, Font.setSequence_self found]
      | ok t => rfl

/-- A request replaces the font by its result, or else leaves it alone. -/
theorem on_run (command : FontCommand) (f : Font) :
    command.run.on f =
      match command.result f with
      | .error cause => (.error cause, f)
      | .ok (reply, g) => (.ok reply, g) := by
  cases command with
  | setName name =>
      simp only [run, result, Font.setName, Change.on_bind, Change.on_lift]
      cases FontName.ofText name with
      | error cause => rfl
      | ok stored => rfl
  | push sequence => rfl
  | remove index =>
      simp only [run, result, Change.on_bind, Change.on_get, Change.on_lift]
      cases f.removeSequence index with
      | error cause => rfl
      | ok removed => rfl
  | restore sequences =>
      simp only [run, result, Change.on_bind, Change.on_get, Change.on_lift]
      cases f.restoreSequences sequences with
      | error cause => rfl
      | ok g => rfl
  | edit index command => exact on_runAt index command f

theorem result_of_refused {command : FontCommand} (refused : command.Refused f) :
    ∃ cause, command.result f = .error cause := by
  cases command with
  | setName name =>
      have long : FontName.ofText name = .error _ := dif_neg (Nat.not_le.mpr refused)
      simp only [result, Font.setName, long]
      exact ⟨_, rfl⟩
  | push sequence => exact absurd refused id
  | remove index =>
      by_cases inside : index < f.sequenceCount
      · rcases refused with beyond | single
        · exact absurd inside (Nat.not_lt.mpr beyond)
        · simp only [result, Font.removeSequence_of_single inside single]
          exact ⟨_, rfl⟩
      · simp only [result, Font.removeSequence_of_le (Nat.not_lt.mp inside)]
        exact ⟨_, rfl⟩
  | restore sequences =>
      have empty : f.restoreSequences sequences = .error _ := dif_pos refused
      simp only [result, empty]
      exact ⟨_, rfl⟩
  | edit index command =>
      obtain ⟨s, found, refused⟩ := refused
      obtain ⟨cause, failed⟩ := SequenceCommand.result_of_refused refused
      have listed : f.sequence? index = some s := found
      simp only [result, listed, failed]
      exact ⟨cause, rfl⟩

theorem result_of_not_refused {command : FontCommand} (accepted : ¬ command.Refused f) :
    ∃ reply g, command.result f = .ok (reply, g) ∧ command.Effect f reply g := by
  cases command with
  | setName name =>
      have stored : FontName.ofText name = .ok _ := dif_pos (Nat.not_lt.mp accepted)
      simp only [result, Font.setName, stored]
      exact ⟨_, _, rfl, rfl, _, rfl, rfl⟩
  | push sequence => exact ⟨_, _, rfl, rfl, rfl, rfl, rfl, rfl⟩
  | remove index =>
      obtain ⟨inside, several⟩ := not_or.mp accepted
      obtain ⟨nonempty, removed⟩ := Font.exists_removeSequence (Nat.not_le.mp inside) several
      simp only [result, removed]
      exact ⟨_, _, rfl, _, List.getElem?_eq_getElem _, rfl, rfl, rfl, rfl, rfl⟩
  | restore sequences =>
      have restored : f.restoreSequences sequences = .ok _ := dif_neg accepted
      simp only [result, restored]
      exact ⟨_, _, rfl, rfl, rfl, rfl, rfl, rfl⟩
  | edit index command =>
      simp only [result]
      cases found : f.sequence? index with
      | none => exact ⟨_, _, rfl, .inl ⟨found, rfl, rfl⟩⟩
      | some s =>
          have accepts : ¬ command.Refused s := by
            intro refused
            exact accepted ⟨s, found, refused⟩
          obtain ⟨t, changed, effect⟩ := SequenceCommand.result_of_not_refused accepts
          simp only [changed]
          exact ⟨_, _, rfl, .inr ⟨s, t, found, effect, rfl, rfl, rfl, rfl, rfl⟩⟩

end

end FontCommand

/-- A request fails where the font refuses it and changes nothing, and else has its
effect. -/
structure FontCommand.AllOrNothing (f : Font) (command : FontCommand) : Prop where
  fails_iff : (∃ cause, (command.run.on f).1 = .error cause) ↔ command.Refused f
  unchanged : ∀ cause g, command.run.on f = (.error cause, g) → g = f
  effect : ∀ reply g, command.run.on f = (.ok reply, g) → command.Effect f reply g

theorem FontCommand.allOrNothing (f : Font) (command : FontCommand) : command.AllOrNothing f := by
  by_cases refused : command.Refused f
  · obtain ⟨cause, failed⟩ := result_of_refused refused
    have ran : command.run.on f = (.error cause, f) := by rw [on_run, failed]
    constructor
    · rw [ran]
      exact ⟨fun _ => refused, fun _ => ⟨cause, rfl⟩⟩
    · intro cause' g result
      rw [ran] at result
      cases result
      rfl
    · intro reply g result
      rw [ran] at result
      cases result
  · obtain ⟨reply, g, ok, effect⟩ := result_of_not_refused refused
    have ran : command.run.on f = (.ok reply, g) := by rw [on_run, ok]
    constructor
    · rw [ran]
      constructor
      · rintro ⟨cause, failed⟩
        cases failed
      · intro other
        exact absurd other refused
    · intro cause g' result
      rw [ran] at result
      cases result
    · intro reply' g' result
      rw [ran] at result
      cases result
      exact effect

/-! ### Runs of requests -/

namespace Font

/-- The fonts that a constructor makes. -/
inductive Made : Font → Prop
  | new (name : String) : Made (.new name)
  | withSequence (name : String) (sequence : Sequence) : Made (.withSequence name sequence)
  | ofSequences {name : String} {sequences : List Sequence} {f : Font} :
      Font.ofSequences name sequences = .ok f → Made f
  | decoded {stream : List UInt8} {f : Font} : Font.decode stream = .ok f → Made f

/-- The fonts that requests lead to, refused ones included. -/
inductive Reachable : Font → Prop
  | made {f : Font} : Made f → Reachable f
  | requested {f : Font} (command : FontCommand) : Reachable f → Reachable (command.run.on f).2

/-- Requests that lead from one font to another, none of them refused. -/
inductive Leads (start : Font) : List FontCommand → Font → Prop
  | start : Leads start [] start
  | request {commands : List FontCommand} {command : FontCommand} {reply : FontReply} {f g : Font} :
      Leads start commands f → command.run.on f = (.ok reply, g) →
      Leads start (commands ++ [command]) g

/-- A refused request does not show in the font that a run ends with. -/
theorem Reachable.exists_leads {f : Font} (reached : f.Reachable) :
    ∃ start commands, Made start ∧ Leads start commands f := by
  induction reached with
  | @made f made => exact ⟨f, [], made, .start⟩
  | @requested f command reached ih =>
      obtain ⟨start, commands, made, leads⟩ := ih
      rcases ran : command.run.on f with ⟨cause | reply, g⟩
      · have same := (command.allOrNothing f).unchanged cause g ran
        rw [same]
        exact ⟨start, commands, made, leads⟩
      · exact ⟨start, commands ++ [command], made, leads.request ran⟩

/-- Every font that requests lead to is well formed. It refuses just the requests that
`Refused` names and stays as it is then: in particular none of several glyphs is
stored if one does not fit, and a sequence is removed unless there is no such or no
other one. What was refused on the way to the font can be left out. -/
theorem Reachable.requests_all_or_nothing {f : Font} (reached : f.Reachable) :
    f.WellFormed ∧
      (∀ command : FontCommand, command.AllOrNothing f) ∧
      (∀ index s glyphs, f.sequences[index]? = some s → (∃ g ∈ glyphs, g.height ≠ s.height) →
        ∃ cause, (FontCommand.edit index (.replaceGlyphs glyphs)).run.on f = (.error cause, f)) ∧
      (∀ index, (∃ cause, (FontCommand.remove index).run.on f = (.error cause, f)) ↔
        f.sequences.length ≤ index ∨ f.sequences.length = 1) ∧
      ∃ start commands, Made start ∧ Leads start commands f := by
  have refusal : ∀ command : FontCommand,
      (∃ cause, command.run.on f = (.error cause, f)) ↔ command.Refused f := by
    intro command
    rw [← (command.allOrNothing f).fails_iff]
    constructor
    · rintro ⟨cause, failed⟩
      exact ⟨cause, congrArg Prod.fst failed⟩
    · rintro ⟨cause, failed⟩
      have same := (command.allOrNothing f).unchanged cause _ (Prod.ext failed rfl)
      exact ⟨cause, Prod.ext failed same⟩
  refine ⟨f.wellFormed, fun command => command.allOrNothing f, ?_, ?_, reached.exists_leads⟩
  · intro index s glyphs found mismatch
    exact (refusal (.edit index (.replaceGlyphs glyphs))).mpr ⟨s, found, mismatch⟩
  · intro index
    exact refusal (.remove index)

/-- A new font that was given another name. -/
def renamedFont : Font :=
  ((FontCommand.setName "Tiny").run.on (.new "Draft")).2

theorem requests_all_or_nothing_renamed :
    renamedFont.Reachable ∧ renamedFont.WellFormed ∧
      (∃ cause, (FontCommand.edit 0 (.replaceGlyphs [.blank 65 5 16, .blank 66 5 15])).run.on
        renamedFont = (.error cause, renamedFont)) ∧
      ∃ cause, (FontCommand.remove 0).run.on renamedFont = (.error cause, renamedFont) := by
  have reached : renamedFont.Reachable := .requested (.setName "Tiny") (.made (.new "Draft"))
  obtain ⟨wellFormed, -, stored, removed, -⟩ := reached.requests_all_or_nothing
  refine ⟨reached, wellFormed, ?_, ?_⟩
  · apply stored 0 initialSequence _ rfl
    exact ⟨.blank 66 5 15, by simp, by decide⟩
  · exact (removed 0).mpr (.inr rfl)

end Font

end BitmapFont
