import BitmapFont.Proofs.Raster.Glyphs
import Mathlib.Algebra.Order.Round
import Mathlib.Data.Rat.Floor

/-!
The line of a rasterized sequence.

Whatever an engine reports and however it draws, a sequence of every size but zero
results. Its height is the one that the engine gives a line (`lineHeight`), moved into
a byte, and its baseline stands inside. Main facts:

* `threeQuarters_eq_round`: an estimated baseline is three quarters of the height,
  rounded half up;
* `repairBaseline_mem`: a line of three rows or more has its baseline strictly inside;
* `rasterizeSequence_fails_only_at_zero`: all of this for every engine.
-/

namespace BitmapFont.Raster

/-! ### Rounding -/

/-- Half of a unit is rounded up. -/
theorem threeQuarters_eq_round {height : Int} (nonneg : 0 ≤ height) :
    threeQuarters height = round ((3 * height : ℚ) / 4) := by
  have quarters : threeQuarters height = (3 * height + 2) / 4 := if_pos nonneg
  have low : 4 * ((3 * height + 2) / 4) ≤ 3 * height + 2 := by omega
  have high : 3 * height + 2 < 4 * ((3 * height + 2) / 4) + 4 := by omega
  have lowRat : 4 * (((3 * height + 2) / 4 : ℤ) : ℚ) ≤ 3 * height + 2 := by exact_mod_cast low
  have highRat : (3 * height + 2 : ℚ) < 4 * (((3 * height + 2) / 4 : ℤ) : ℚ) + 4 := by
    exact_mod_cast high
  rw [quarters, round_eq]
  symm
  apply Int.floor_eq_iff.mpr
  constructor
  · linarith
  · linarith

/-- Three quarters of a line of three rows or more lie strictly inside. -/
theorem threeQuarters_mem {height : Int} (tall : 3 ≤ height) :
    1 ≤ threeQuarters height ∧ threeQuarters height < height := by
  unfold threeQuarters
  rw [if_pos (by omega)]
  omega

/-! ### Baselines -/

theorem repairBaseline_of_mem {height baseline : Int} (pos : 1 ≤ baseline)
    (below : baseline < height) : repairBaseline height baseline = baseline := by
  unfold repairBaseline
  rw [if_neg (Int.not_lt.mpr pos), if_neg (Int.not_le.mpr below)]

/-- In a line of three rows or more every baseline is moved strictly inside. -/
theorem repairBaseline_mem {height : Int} (tall : 3 ≤ height) (baseline : Int) :
    1 ≤ repairBaseline height baseline ∧ repairBaseline height baseline < height := by
  have estimate := threeQuarters_mem tall
  unfold repairBaseline
  simp only
  split <;> split <;> omega

namespace LineMetrics

theorem height_nearest (height baseline : Int) :
    ((nearest height baseline).height.toNat : Int) = max 1 (min height 255) :=
  toNat_byte_clamp height

theorem baseline_nearest (height baseline : Int) :
    ((nearest height baseline).baseline.toNat : Int) =
      max 0 (min baseline (max 1 (min height 255) - 1)) := by
  have rows := clamp_mem (show (1 : Int) ≤ 255 by decide) height
  have stored : (nearest height baseline).baseline.toNat =
      (clamp 0 (clamp 1 255 height - 1) baseline).toNat % 256 := UInt8.toNat_ofNat'
  rw [stored]
  unfold clamp at rows ⊢
  omega

end LineMetrics

/-! ### Lines -/

/-- The height that an engine gives a line: what the font declares, else the height of
the box around the reference text, and the size if that box is empty. -/
def lineHeight (engine : FontEngine) (size : UInt8) : Int :=
  match engine.verticalMetrics size with
  | some metrics => metrics.ascent + metrics.descent
  | none =>
    if (engine.textBounds referenceText size).height < 1 then size.toNat
    else (engine.textBounds referenceText size).height

/-- A sequence whose metrics are those that an engine gives it at a size. -/
structure Lined (engine : FontEngine) (size : UInt8) (s : Sequence) : Prop where
  pointSize : s.pointSize = size
  count : s.glyphs.toList.length = 256
  keyed : ∀ (i : Nat) (inside : i < 256), s.glyphs[i].codepoint.toNat = i
  rows : ∀ (i : Nat) (inside : i < 256), s.glyphs[i].height = s.height
  height : (s.height.toNat : Int) = max 1 (min (lineHeight engine size) 255)
  baseline_lt : s.baseline.toNat < s.height.toNat
  baseline_pos : 3 ≤ s.height.toNat → 1 ≤ s.baseline.toNat
  /-- Metrics that a sequence can have are taken as they are. -/
  declared : ∀ ascent descent, engine.verticalMetrics size = some { ascent, descent } →
    1 ≤ ascent → ascent < ascent + descent → ascent + descent ≤ 255 →
    s.height.toNat = ascent + descent ∧ s.baseline.toNat = ascent
  /-- Without metrics the baseline is three quarters of the height, rounded half up. -/
  estimated : engine.verticalMetrics size = none → 3 ≤ lineHeight engine size →
    lineHeight engine size ≤ 255 →
    s.baseline.toNat = round ((3 * lineHeight engine size : ℚ) / 4)

section
variable {engine : FontEngine} {size : UInt8}

theorem suggestedMetrics_of_some {ascent descent : Int}
    (declared : engine.verticalMetrics size = some { ascent, descent }) :
    suggestedMetrics engine size = (ascent + descent, ascent) := by
  unfold suggestedMetrics
  rw [declared]

theorem suggestedMetrics_of_none (plain : engine.verticalMetrics size = none) :
    suggestedMetrics engine size =
      (lineHeight engine size, threeQuarters (lineHeight engine size)) := by
  unfold suggestedMetrics lineHeight
  rw [plain]

theorem suggestedMetrics_fst : (suggestedMetrics engine size).1 = lineHeight engine size := by
  cases declared : engine.verticalMetrics size with
  | none => rw [suggestedMetrics_of_none declared]
  | some metrics =>
      rw [suggestedMetrics_of_some declared]
      unfold lineHeight
      rw [declared]

/-- What is stored as the metrics of a sequence. -/
theorem sequenceMetrics_eq : sequenceMetrics engine size =
    .nearest (lineHeight engine size)
      (repairBaseline (lineHeight engine size) (suggestedMetrics engine size).2) := by
  rw [← suggestedMetrics_fst]
  rfl

/-- Whatever the engine draws, the sequence has the metrics suggested for its size. -/
theorem exists_rasterizeSequence (engine : FontEngine) (options : RasterOptions)
    (pos : size ≠ 0) :
    ∃ s, rasterizeSequence engine size options = .ok s ∧ s.pointSize = size ∧
      s.height = (sequenceMetrics engine size).height ∧
      s.baseline = (sequenceMetrics engine size).baseline := by
  obtain ⟨s, result, rasterized⟩ := exists_rasterized engine options pos
  exact ⟨s, result, rasterized.pointSize, rasterized.height, rasterized.baseline⟩

theorem lined_of_metrics {s : Sequence} (pointSize : s.pointSize = size)
    (height : s.height = (sequenceMetrics engine size).height)
    (baseline : s.baseline = (sequenceMetrics engine size).baseline) : Lined engine size s := by
  have rows := LineMetrics.height_nearest (lineHeight engine size)
    (repairBaseline (lineHeight engine size) (suggestedMetrics engine size).2)
  have base := LineMetrics.baseline_nearest (lineHeight engine size)
    (repairBaseline (lineHeight engine size) (suggestedMetrics engine size).2)
  rw [← sequenceMetrics_eq, ← height] at rows
  rw [← sequenceMetrics_eq, ← baseline] at base
  constructor
  case pointSize => exact pointSize
  case count => exact Vector.length_toList
  case keyed => exact s.keyed
  case rows => exact s.rows_eq
  case height => exact rows
  case baseline_lt => exact s.baseline_lt
  case baseline_pos =>
    intro tall
    have tallLine : 3 ≤ lineHeight engine size := by omega
    have inside := repairBaseline_mem tallLine (suggestedMetrics engine size).2
    omega
  case declared =>
    intro ascent descent declared pos below fits
    have suggested := suggestedMetrics_of_some declared
    have line : lineHeight engine size = ascent + descent := by
      rw [← suggestedMetrics_fst, suggested]
    rw [line] at rows base
    rw [suggested, repairBaseline_of_mem pos below] at base
    omega
  case estimated =>
    intro plain tall fits
    have inside := threeQuarters_mem tall
    rw [suggestedMetrics_of_none plain, repairBaseline_of_mem inside.1 inside.2] at base
    rw [← threeQuarters_eq_round (by omega)]
    omega

end

/-- Rasterizing fails at size zero only. At every other size, whatever the engine
reports and draws, the sequence has the metrics that the engine gives it. -/
theorem rasterizeSequence_fails_only_at_zero (engine : FontEngine) (size : UInt8)
    (options : RasterOptions) :
    ((∃ cause, rasterizeSequence engine size options = .error cause) ↔ size = 0) ∧
      (size ≠ 0 → ∃ s, rasterizeSequence engine size options = .ok s ∧ Lined engine size s) := by
  have succeeds : size ≠ 0 →
      ∃ s, rasterizeSequence engine size options = .ok s ∧ Lined engine size s := by
    intro pos
    obtain ⟨s, result, pointSize, height, baseline⟩ := exists_rasterizeSequence engine options pos
    exact ⟨s, result, lined_of_metrics pointSize height baseline⟩
  refine ⟨⟨?_, ?_⟩, succeeds⟩
  · rintro ⟨cause, failed⟩
    apply Classical.byContradiction
    intro pos
    obtain ⟨s, result, -⟩ := succeeds pos
    rw [result] at failed
    cases failed
  · intro zero
    exact ⟨_, if_pos zero⟩

/-- A font of boxes that declares a line of twelve rows and cannot draw `A`. -/
def declaringFont : BoxFont where
  metrics := some { ascent := 9, descent := 3, ascentSlope := 0, descentSlope := 0 }
  reference := { left := 0, top := 0, right := 0, bottom := 0 }
  fallback := { left := 1, top := 2, right := 6, bottom := 9 }
  boxes := []
  failing := ['A']
  ramp := { base := 255, slopeX := 0, slopeY := 0 }

/-- A font of boxes that declares no line and whose reference text is ten rows high. -/
def plainFont : BoxFont :=
  { declaringFont with
    metrics := none
    reference := { left := 0, top := -3, right := 40, bottom := 7 } }

theorem rasterizeSequence_declared_and_estimated :
    (∃ s, rasterizeSequence declaringFont.engine 14 .default = .ok s ∧
      s.height.toNat = 12 ∧ s.baseline.toNat = 9) ∧
    (∃ s, rasterizeSequence plainFont.engine 14 .default = .ok s ∧
      s.height.toNat = 10 ∧ s.baseline.toNat = 8) ∧
    ∃ cause, rasterizeSequence plainFont.engine 0 .default = .error cause := by
  refine ⟨?_, ?_, ?_⟩
  · obtain ⟨s, result, lined⟩ :=
      (rasterizeSequence_fails_only_at_zero declaringFont.engine 14 .default).2 (by decide)
    have metrics := lined.declared 9 3 rfl (by decide) (by decide) (by decide)
    exact ⟨s, result, by omega, by omega⟩
  · obtain ⟨s, result, lined⟩ :=
      (rasterizeSequence_fails_only_at_zero plainFont.engine 14 .default).2 (by decide)
    have line : lineHeight plainFont.engine 14 = 10 := by decide
    have height := lined.height
    have baseline := lined.estimated rfl (by omega) (by omega)
    rw [line] at height
    rw [← threeQuarters_eq_round (by omega), line] at baseline
    have rounded : threeQuarters 10 = 8 := by decide
    exact ⟨s, result, by omega, by omega⟩
  · exact (rasterizeSequence_fails_only_at_zero plainFont.engine 0 .default).1.mpr rfl

end BitmapFont.Raster
