import BitmapFont.Proofs.Font.Commands
import BitmapFont.Proofs.Glyph.Rows

/-!
Batch transforms of a sequence.

A batch transform computes new glyphs for a range of codepoints and stores each under
the codepoint that the result carries. Since no transform changes the codepoint or the
height of a glyph, this comes to replacing every glyph of the range by its image.
`Batch.FailsFirstAt` names the failure that is reported. Main facts:

* `Batch.sequence_of_forall`: without a failure all glyphs of the range change, and no
  others;
* `Batch.sequence_of_failsFirstAt`: the failure at the lowest codepoint is reported.
-/

namespace BitmapFont

namespace Batch

/-- What a transform makes of the glyph of a codepoint. -/
def outcome (t : Batch) (q : Sequence) (codepoint : UInt8) : Except FontError Glyph :=
  t.glyph q.height (q.glyph codepoint)

/-- The lowest codepoint of a range at which a transform fails. -/
structure FailsFirstAt (t : Batch) (range : CodepointRange) (q : Sequence) (codepoint : UInt8)
    (cause : FontError) : Prop where
  inside : range.Contains codepoint
  failed : t.outcome q codepoint = .error cause
  before : ∀ c, range.Contains c → c < codepoint → ∃ g, t.outcome q c = .ok g

variable {t : Batch} {range : CodepointRange} {q q' : Sequence}

theorem sameRows_outcome {codepoint : UInt8} {g : Glyph} (done : t.outcome q codepoint = .ok g) :
    (q.glyph codepoint).SameRows g := by
  apply Batch.sameRows
  rw [Sequence.glyph_height]
  exact done

/-- Below a failure there is a lowest one. -/
theorem exists_failsFirstAt {c : UInt8} {cause : FontError} (inside : range.Contains c)
    (failed : t.outcome q c = .error cause) : ∃ b cause', t.FailsFirstAt range q b cause' := by
  by_cases lower : ∃ b cause', range.Contains b ∧ b < c ∧ t.outcome q b = .error cause'
  · obtain ⟨b, cause', inside', below, failed'⟩ := lower
    exact exists_failsFirstAt inside' failed'
  · refine ⟨c, cause, inside, failed, ?_⟩
    intro b inside' below
    cases result : t.outcome q b with
    | ok g => exact ⟨g, rfl⟩
    | error cause' => exact absurd ⟨b, cause', inside', below, result⟩ lower
termination_by c.toNat
decreasing_by exact UInt8.lt_iff_toNat_lt.mp below

section
variable {f : UInt8 → Except FontError Glyph} {codepoints : List UInt8}

theorem mapM_of_forall {image : UInt8 → Glyph} (ok : ∀ c ∈ codepoints, f c = .ok (image c)) :
    codepoints.mapM f = .ok (codepoints.map image) := by
  induction codepoints with
  | nil => rfl
  | cons c rest ih =>
      rw [List.mapM_cons, ok c List.mem_cons_self,
        ih fun b mem => ok b (List.mem_cons_of_mem c mem)]
      rfl

/-- In ascending order the lowest failure comes first. -/
theorem mapM_of_lowest (ascending : codepoints.Pairwise (· < ·)) {c : UInt8} {cause : FontError}
    (listed : c ∈ codepoints) (failed : f c = .error cause)
    (before : ∀ b ∈ codepoints, b < c → ∃ g, f b = .ok g) : codepoints.mapM f = .error cause := by
  induction codepoints with
  | nil => cases listed
  | cons b rest ih =>
      obtain ⟨least, ascending⟩ := List.pairwise_cons.mp ascending
      rw [List.mapM_cons]
      rcases List.mem_cons.mp listed with rfl | later
      · rw [failed]
        rfl
      · obtain ⟨g, ok⟩ := before b List.mem_cons_self (least c later)
        have rest_failed := ih ascending later fun d mem => before d (List.mem_cons_of_mem b mem)
        rw [ok, rest_failed]
        rfl

end

/-- Glyphs that are stored under the codepoints they were made for. -/
theorem glyph_foldl_insert_images {image : UInt8 → Glyph} (codepoints : List UInt8) (q : Sequence)
    (rows : ∀ c, (q.glyph c).SameRows (image c)) (c : UInt8) :
    ((codepoints.map image).foldl Sequence.insert q).glyph c =
      if c ∈ codepoints then image c else q.glyph c := by
  have fits : ∀ g ∈ codepoints.map image, g.height = q.height := by
    intro g mem
    obtain ⟨b, -, rfl⟩ := List.mem_map.mp mem
    rw [(rows b).height, Sequence.glyph_height]
  have own : ∀ b, (image b).codepoint = b := by
    intro b
    rw [(rows b).codepoint, Sequence.glyph_codepoint]
  have stored : (codepoints.map image).filter (fun g => g.codepoint = c) =
      List.replicate (codepoints.count c) (image c) := by
    simp [List.filter_map, Function.comp_def, own, List.filter_eq]
  rw [Sequence.glyph_foldl_insert fits, stored, List.getLast?_replicate]
  by_cases listed : c ∈ codepoints
  · rw [if_pos listed, if_neg (Nat.ne_of_gt (List.count_pos_iff.mpr listed))]
    rfl
  · rw [if_neg listed, if_pos (List.count_eq_zero_of_not_mem listed)]
    rfl

/-- A transform that fails nowhere in a range changes the glyphs of the range. -/
theorem sequence_of_forall (named : t.width? ≠ some 0)
    (images : ∀ c, range.Contains c → ∃ g, t.outcome q c = .ok g) :
    ∃ q', t.sequence range q = .ok q' ∧ q.SameMetrics q' ∧
      (∀ c, range.Contains c → t.outcome q c = .ok (q'.glyph c)) ∧
      ∀ c, ¬ range.Contains c → q'.glyph c = q.glyph c := by
  -- Outside the range any glyph of the right shape will do.
  let image (c : UInt8) : Glyph :=
    match t.outcome q c with
    | .ok g => g
    | .error _ => q.glyph c
  have done : ∀ c, range.Contains c → t.outcome q c = .ok (image c) := by
    intro c inside
    obtain ⟨g, ok⟩ := images c inside
    simp only [image, ok]
  have rows : ∀ c, (q.glyph c).SameRows (image c) := by
    intro c
    cases result : t.outcome q c with
    | ok g =>
        simp only [image, result]
        exact sameRows_outcome result
    | error cause =>
        simp only [image, result]
        exact .refl _
  have fits : ∀ g ∈ range.codepoints.map image, g.height = q.height := by
    intro g mem
    obtain ⟨c, -, rfl⟩ := List.mem_map.mp mem
    rw [(rows c).height, Sequence.glyph_height]
  have listed : range.codepoints.mapM (t.outcome q) = .ok (range.codepoints.map image) :=
    mapM_of_forall fun c mem => done c (CodepointRange.mem_codepoints.mp mem)
  have stored := glyph_foldl_insert_images range.codepoints q rows
  refine ⟨(range.codepoints.map image).foldl Sequence.insert q, ?_,
    q.sameMetrics_foldl_insert _, ?_, ?_⟩
  · rw [sequence, if_neg named]
    change (range.codepoints.mapM (t.outcome q) >>= q.replaceGlyphs) = _
    rw [listed]
    exact SequenceCommand.replaceGlyphs_of_forall fits
  · intro c inside
    rw [stored, if_pos (CodepointRange.mem_codepoints.mpr inside)]
    exact done c inside
  · intro c outside
    rw [stored, if_neg fun mem => outside (CodepointRange.mem_codepoints.mp mem)]

/-- A transform that fails somewhere in a range reports the lowest failure. -/
theorem sequence_of_failsFirstAt (named : t.width? ≠ some 0) {codepoint : UInt8}
    {cause : FontError} (fails : t.FailsFirstAt range q codepoint cause) :
    t.sequence range q = .error cause := by
  have listed : range.codepoints.mapM (t.outcome q) = .error cause := by
    refine mapM_of_lowest range.codepoints_ascending
      (CodepointRange.mem_codepoints.mpr fails.inside) fails.failed ?_
    intro b mem
    exact fails.before b (CodepointRange.mem_codepoints.mp mem)
  rw [sequence, if_neg named]
  change (range.codepoints.mapM (t.outcome q) >>= q.replaceGlyphs) = _
  rw [listed]
  rfl

/-- A transform of a range succeeds only if it fails nowhere in it. -/
theorem forall_of_sequence (done : t.sequence range q = .ok q') :
    t.width? ≠ some 0 ∧ ∀ c, range.Contains c → ∃ g, t.outcome q c = .ok g := by
  have named : t.width? ≠ some 0 := by
    intro zero
    rw [sequence, if_pos zero] at done
    cases done
  refine ⟨named, ?_⟩
  intro c inside
  cases result : t.outcome q c with
  | ok g => exact ⟨g, rfl⟩
  | error cause =>
      obtain ⟨b, cause', fails⟩ := exists_failsFirstAt inside result
      rw [sequence_of_failsFirstAt named fails] at done
      cases done

end Batch

end BitmapFont
