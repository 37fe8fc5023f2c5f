import BitmapFont.Proofs.Raster.Metrics

/-!
Reports of a long import.

Several sizes are rasterized one after the other, and each is reported before it is
started. A report may have any effect, so an import is compared with the bare list of its
reports, in every monad. Main facts:

* `Raster.run_rasterizeFrom_cons`: what one size adds to an import;
* `Raster.run_rasterizeFrom`: an import of positive sizes makes a report for each and
  returns their sequences;
* `Raster.rasterizeSizes_all_or_nothing`: an import makes no report if it is refused, and
  all of them if it is not.
-/

namespace BitmapFont.Raster

/-- The reports on some sizes out of `total`, from the one at `index` on. -/
def reportsFrom (total index : Nat) (sizes : List UInt8) : List Progress :=
  sizes.mapIdx fun i size => { index := index + i, total, size }

theorem reportsFrom_cons (total index : Nat) (size : UInt8) (sizes : List UInt8) :
    reportsFrom total index (size :: sizes) =
      { index, total, size } :: reportsFrom total (index + 1) sizes := by
  unfold reportsFrom
  rw [List.mapIdx_cons]
  simp only [Nat.add_zero, Nat.add_assoc, Nat.add_comm 1]

section
variable {engine : FontEngine} {options : RasterOptions}

/-- Every positive size has its sequence. -/
theorem exists_sequences (engine : FontEngine) (options : RasterOptions) {sizes : List UInt8}
    (pos : 0 ∉ sizes) :
    ∃ sequences : List Sequence,
      sizes.map (rasterizeSequence engine · options) = sequences.map Except.ok := by
  induction sizes with
  | nil => exact ⟨[], rfl⟩
  | cons size rest ih =>
      obtain ⟨first, others⟩ := not_or.mp (mt List.mem_cons.mpr pos)
      obtain ⟨s, result, -⟩ := exists_rasterized engine options (Ne.symm first)
      obtain ⟨sequences, results⟩ := ih others
      exact ⟨s :: sequences, by rw [List.map_cons, List.map_cons, result, results]⟩

variable {m : Type → Type} [Monad m] [LawfulMonad m]

/-- A size that can be rasterized is reported, and its sequence comes before the rest. -/
theorem run_rasterizeFrom_cons (total : Nat) (report : Progress → m Unit) (index : Nat)
    {size : UInt8} {s : Sequence} (result : rasterizeSequence engine size options = .ok s)
    (sizes : List UInt8) :
    (rasterizeFrom engine options total report index (size :: sizes)).run = do
      report { index, total, size }
      let rest ← (rasterizeFrom engine options total report (index + 1) sizes).run
      return rest.map (s :: ·) := by
  rw [rasterizeFrom, result]
  unfold rasterizeFrom.liftExcept
  simp [ExceptT.run_bind]

/-- Nothing fails once a report was made, since only size zero cannot be rasterized. -/
theorem run_rasterizeFrom (total : Nat) (report : Progress → m Unit) {sizes : List UInt8}
    {sequences : List Sequence}
    (results : sizes.map (rasterizeSequence engine · options) = sequences.map Except.ok)
    (index : Nat) :
    (rasterizeFrom engine options total report index sizes).run = do
      (reportsFrom total index sizes).forM report
      return .ok sequences := by
  induction sizes generalizing index sequences with
  | nil =>
      have none : sequences = [] := List.map_eq_nil_iff.mp results.symm
      rw [none]
      simp [rasterizeFrom, reportsFrom]
  | cons size rest ih =>
      -- The sequences split as the sizes do.
      obtain ⟨s, others, rfl, result, later⟩ := List.map_eq_cons_iff.mp results.symm
      rw [run_rasterizeFrom_cons total report index result.symm rest, ih later.symm (index + 1),
        reportsFrom_cons]
      simp [Except.map]

end

/-- An import makes some reports and then has an outcome, whatever a report does. -/
def ComesTo (engine : FontEngine) (sizes : List UInt8) (options : RasterOptions)
    (reports : List Progress) (outcome : Except FontError (List Sequence)) : Prop :=
  ∀ {m : Type → Type} [Monad m] [LawfulMonad m] (report : Progress → m Unit),
    rasterizeSizes engine sizes options report = do
      reports.forM report
      return outcome

section
variable {engine : FontEngine} {options : RasterOptions} {sizes : List UInt8}

theorem comesTo_of_refused (engine : FontEngine) (options : RasterOptions)
    (refused : sizes = [] ∨ 0 ∈ sizes) :
    ∃ cause, ComesTo engine sizes options [] (.error cause) := by
  by_cases empty : sizes = []
  · refine ⟨.argument .noSizes, ?_⟩
    intro m _ _ report
    unfold rasterizeSizes
    simp [if_pos empty]
  · refine ⟨.argument .zeroPointSize, ?_⟩
    intro m _ _ report
    unfold rasterizeSizes
    simp [if_neg empty, if_pos (refused.resolve_left empty)]

theorem comesTo_of_not_refused {sequences : List Sequence} (some : sizes ≠ []) (pos : 0 ∉ sizes)
    (results : sizes.map (rasterizeSequence engine · options) = sequences.map Except.ok) :
    ComesTo engine sizes options (reportsFrom sizes.length 0 sizes) (.ok sequences) := by
  intro m _ _ report
  unfold rasterizeSizes
  rw [if_neg some, if_neg pos, run_rasterizeFrom sizes.length report results 0]

end

/-- Every import comes to some reports and an outcome. Without sizes, or with zero among
them, the outcome is a failure and nothing is reported. Otherwise the outcome consists of
the sequences of all sizes, and every size is reported once and in order. -/
theorem rasterizeSizes_all_or_nothing (engine : FontEngine) (sizes : List UInt8)
    (options : RasterOptions) :
    ∃ reports outcome, ComesTo engine sizes options reports outcome ∧
      ((∃ cause, outcome = .error cause) ↔ sizes = [] ∨ 0 ∈ sizes) ∧
      ((∃ cause, outcome = .error cause) → reports = []) ∧
      ∀ sequences, outcome = .ok sequences →
        sizes.map (rasterizeSequence engine · options) = sequences.map Except.ok ∧
          reports = sizes.mapIdx fun index size => { index, total := sizes.length, size } := by
  by_cases refused : sizes = [] ∨ 0 ∈ sizes
  · obtain ⟨cause, comes⟩ := comesTo_of_refused engine options refused
    refine ⟨[], .error cause, comes, iff_of_true ⟨cause, rfl⟩ refused, fun _ => rfl, ?_⟩
    intro sequences ok
    cases ok
  · obtain ⟨some, pos⟩ := not_or.mp refused
    obtain ⟨sequences, results⟩ := exists_sequences engine options pos
    have succeeds : ¬∃ cause, Except.ok sequences = (.error cause : Except FontError _) := by
      rintro ⟨cause, failed⟩
      cases failed
    refine ⟨_, .ok sequences, comesTo_of_not_refused some pos results,
      iff_of_false succeeds refused, fun failed => absurd failed succeeds, ?_⟩
    intro sequences' ok
    cases ok
    refine ⟨results, ?_⟩
    unfold reportsFrom
    simp only [Nat.zero_add]

/-- A report laid on the pile of those before it. -/
def onPile (progress : Progress) : StateM (List Progress) Unit :=
  modify (progress :: ·)

/-- A size given twice is reported twice, and a refused import leaves the pile empty. -/
theorem rasterizeSizes_all_or_nothing_piled :
    (∃ first second, (rasterizeSizes declaringFont.engine [12, 12] .default onPile).run [] =
      (.ok [first, second], [{ index := 1, total := 2, size := 12 },
        { index := 0, total := 2, size := 12 }])) ∧
    ∃ cause, (rasterizeSizes declaringFont.engine [12, 0] .default onPile).run [] =
      (.error cause, []) := by
  constructor
  · obtain ⟨reports, outcome, comes, fails, -, succeeds⟩ :=
      rasterizeSizes_all_or_nothing declaringFont.engine [12, 12] .default
    cases outcome with
    | error cause => exact absurd (fails.mp ⟨cause, rfl⟩) (by decide)
    | ok sequences =>
        obtain ⟨results, listed⟩ := succeeds sequences rfl
        obtain ⟨first, later, rfl, -, results⟩ := List.map_eq_cons_iff.mp results.symm
        obtain ⟨second, last, rfl, -, results⟩ := List.map_eq_cons_iff.mp results
        obtain rfl := List.map_eq_nil_iff.mp results
        rw [comes, listed]
        exact ⟨first, second, rfl⟩
  · obtain ⟨reports, outcome, comes, fails, quiet, -⟩ :=
      rasterizeSizes_all_or_nothing declaringFont.engine [12, 0] .default
    obtain ⟨cause, rfl⟩ := fails.mpr (by decide)
    rw [comes, quiet ⟨cause, rfl⟩]
    exact ⟨cause, rfl⟩

end BitmapFont.Raster
