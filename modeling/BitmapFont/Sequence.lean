import BitmapFont.Glyph.Basic

/-!
Sequences: one glyph for every codepoint at one pixel size.

A sequence is total: it holds 256 glyphs, glyph `i` under codepoint `i` and each
as high as the sequence, and its baseline lies above the last row. These facts
are fields of the type. Storing a glyph gives it the codepoint it is stored
under (`Sequence.glyph_withGlyph`).
-/

namespace BitmapFont

/-- Number of glyphs of a sequence. -/
abbrev glyphCount : Nat := 256

/-- The glyphs of one pixel size. -/
structure Sequence where
  height : UInt8
  /-- The row that letters stand on. -/
  baseline : UInt8
  /-- The nominal size that the glyphs were made for. -/
  pointSize : UInt8
  glyphs : Vector Glyph glyphCount
  baseline_lt : baseline.toNat < height.toNat
  keyed : ∀ (i : Nat) (h : i < glyphCount), glyphs[i].codepoint.toNat = i
  rows_eq : ∀ (i : Nat) (h : i < glyphCount), glyphs[i].height = height
deriving DecidableEq

namespace Sequence

theorem toNat_lt_glyphCount (codepoint : UInt8) : codepoint.toNat < glyphCount :=
  codepoint.toNat_lt

/-- The entry of a codepoint in a full table of glyphs. -/
def entry (glyphs : Vector Glyph glyphCount) (codepoint : UInt8) : Glyph :=
  have inside := toNat_lt_glyphCount codepoint
  glyphs[codepoint.toNat]

def glyph (s : Sequence) (codepoint : UInt8) : Glyph :=
  entry s.glyphs codepoint

@[simp] theorem glyph_codepoint (s : Sequence) (codepoint : UInt8) :
    (s.glyph codepoint).codepoint = codepoint :=
  UInt8.toNat_inj.mp (s.keyed _ (toNat_lt_glyphCount codepoint))

@[simp] theorem glyph_height (s : Sequence) (codepoint : UInt8) :
    (s.glyph codepoint).height = s.height :=
  s.rows_eq _ (toNat_lt_glyphCount codepoint)

theorem height_pos (s : Sequence) : 0 < s.height.toNat :=
  Nat.lt_of_le_of_lt (Nat.zero_le _) s.baseline_lt

theorem glyph_mem (s : Sequence) (codepoint : UInt8) : s.glyph codepoint ∈ s.glyphs.toList := by
  simp [glyph, entry]

/-- Every glyph of the table is the glyph of its own codepoint. -/
theorem eq_glyph_of_mem {s : Sequence} {g : Glyph} (h : g ∈ s.glyphs.toList) :
    g = s.glyph g.codepoint := by
  obtain ⟨i, inside, rfl⟩ := Vector.mem_iff_getElem.mp (Vector.mem_toList_iff.mp h)
  simp only [glyph, entry, s.keyed i inside]

/-- Sequences with equal glyphs under every codepoint have equal tables. -/
theorem glyphs_eq_of_glyph_eq {a b : Sequence}
    (glyphs : ∀ codepoint, a.glyph codepoint = b.glyph codepoint) : a.glyphs = b.glyphs := by
  refine Vector.ext fun i hi => ?_
  have same := glyphs (UInt8.ofNat i)
  have index : (UInt8.ofNat i).toNat = i := by
    simpa using hi
  simpa only [glyph, entry, index] using same

/-- Sequences with equal metrics and equal glyphs are equal. -/
theorem ext_glyphs {a b : Sequence} (height : a.height = b.height)
    (baseline : a.baseline = b.baseline) (pointSize : a.pointSize = b.pointSize)
    (glyphs : ∀ codepoint, a.glyph codepoint = b.glyph codepoint) : a = b := by
  have table := glyphs_eq_of_glyph_eq glyphs
  cases a; cases b
  simp_all

/-! ### Building sequences -/

/-- The error of a height and baseline that no sequence has, if they are so. -/
def checkMetrics (height baseline : UInt8) :
    Except FontError (PLift (baseline.toNat < height.toNat)) :=
  if height = 0 then .error (.argument .zeroHeight)
  else if below : baseline.toNat < height.toNat then .ok ⟨below⟩
  else .error (.argument (.baselineTooLow baseline.toNat height.toNat))

/-- The sequence of the glyphs `f 0`, …, `f 255`, each stored under its
index. -/
def ofFn (height baseline pointSize : UInt8) (below : baseline.toNat < height.toNat)
    (f : UInt8 → Glyph) (rows : ∀ codepoint, (f codepoint).height = height) : Sequence where
  height := height
  baseline := baseline
  pointSize := pointSize
  glyphs := Vector.ofFn fun i => (f (UInt8.ofNat i)).withCodepoint (UInt8.ofNat i)
  baseline_lt := below
  keyed := by
    intro i h
    simp
  rows_eq := by
    intro i h
    simp [rows]

/-- Reading a codepoint of a sequence made from a function. -/
theorem glyph_ofFn {height baseline pointSize : UInt8} (below : baseline.toNat < height.toNat)
    {f : UInt8 → Glyph} (rows : ∀ codepoint, (f codepoint).height = height) (codepoint : UInt8) :
    (ofFn height baseline pointSize below f rows).glyph codepoint =
      (f codepoint).withCodepoint codepoint := by
  simp [ofFn, glyph, entry]

/-- The sequence of empty default glyphs, for metrics known to be valid. -/
def blank (height baseline pointSize : UInt8) (below : baseline.toNat < height.toNat) : Sequence :=
  ofFn height baseline pointSize below (Glyph.emptyDefault · height) fun codepoint =>
    Glyph.emptyDefault_height codepoint (Nat.lt_of_le_of_lt (Nat.zero_le _) below)

@[simp] theorem glyph_blank {height baseline : UInt8} (pointSize : UInt8)
    (below : baseline.toNat < height.toNat) (codepoint : UInt8) :
    (blank height baseline pointSize below).glyph codepoint =
      Glyph.emptyDefault codepoint height := by
  unfold blank
  rw [glyph_ofFn]
  exact Glyph.withCodepoint_self (Glyph.emptyDefault codepoint height)

/-- The sequence of empty default glyphs. -/
def empty (height baseline pointSize : UInt8) : Except FontError Sequence := do
  let ⟨below⟩ ← checkMetrics height baseline
  return blank height baseline pointSize below

/-- The sequence of a full table of glyphs. Glyph `i` is stored under codepoint
`i`, whatever its own codepoint was. -/
def ofGlyphs (height baseline pointSize : UInt8) (glyphs : Vector Glyph glyphCount) :
    Except FontError Sequence := do
  let ⟨below⟩ ← checkMetrics height baseline
  match fits : glyphs.toList.find? fun g => g.height != height with
  | some bad =>
    .error (.argument (.glyphHeight bad.codepoint.toNat bad.height.toNat height.toNat))
  | none =>
    return ofFn height baseline pointSize below
      (entry glyphs) fun codepoint => by
        have := List.find?_eq_none.mp fits (entry glyphs codepoint) (by simp [entry])
        simpa using this

/-- A full table of glyphs that are as high as the sequence makes one. -/
theorem ofGlyphs_of_fits {height baseline : UInt8} (pointSize : UInt8)
    {glyphs : Vector Glyph glyphCount} (below : baseline.toNat < height.toNat)
    (fits : ∀ codepoint, (entry glyphs codepoint).height = height) :
    ofGlyphs height baseline pointSize glyphs =
      .ok (ofFn height baseline pointSize below (entry glyphs) fits) := by
  have pos : height ≠ 0 := toNat_pos_iff.mp (Nat.lt_of_le_of_lt (Nat.zero_le _) below)
  have none : (glyphs.toList.find? fun g => g.height != height) = none := by
    apply List.find?_eq_none.mpr
    intro g mem
    obtain ⟨i, inside, rfl⟩ := Vector.mem_iff_getElem.mp (Vector.mem_toList_iff.mp mem)
    have index : (UInt8.ofNat i).toNat = i := by
      simpa using inside
    have fitting := fits (UInt8.ofNat i)
    simp only [entry, index] at fitting
    simp [fitting]
  unfold ofGlyphs checkMetrics
  rw [if_neg pos, dif_pos below]
  simp only [bind, Except.bind]
  split
  · rename_i bad found
    rw [none] at found
    cases found
  · rfl

/-- A table that gives every codepoint a fitting glyph of its own. -/
theorem exists_ofGlyphs {height baseline : UInt8} (pointSize : UInt8) {f : UInt8 → Glyph}
    (below : baseline.toNat < height.toNat)
    (keyed : ∀ codepoint, (f codepoint).codepoint = codepoint)
    (rows : ∀ codepoint, (f codepoint).height = height) :
    ∃ s, ofGlyphs height baseline pointSize (Vector.ofFn fun i => f (UInt8.ofNat i)) = .ok s ∧
      s.height = height ∧ s.baseline = baseline ∧ s.pointSize = pointSize ∧
      ∀ codepoint, s.glyph codepoint = f codepoint := by
  have entries : ∀ codepoint,
      entry (Vector.ofFn fun i => f (UInt8.ofNat i)) codepoint = f codepoint := by
    intro codepoint
    simp [entry]
  have fits : ∀ codepoint,
      (entry (Vector.ofFn fun i => f (UInt8.ofNat i)) codepoint).height = height := by
    intro codepoint
    rw [entries, rows]
  refine ⟨_, ofGlyphs_of_fits pointSize below fits, rfl, rfl, rfl, ?_⟩
  intro codepoint
  have kept := (f codepoint).withCodepoint_self
  rw [keyed] at kept
  rw [glyph_ofFn, entries, kept]

/-! ### Changing sequences -/

def setBaseline (s : Sequence) (baseline : UInt8) : Except FontError Sequence := do
  let ⟨below⟩ ← checkMetrics s.height baseline
  return { s with baseline, baseline_lt := below }

theorem setBaseline_of_le {s : Sequence} {baseline : UInt8}
    (low : s.height.toNat ≤ baseline.toNat) :
    s.setBaseline baseline =
      .error (.argument (.baselineTooLow baseline.toNat s.height.toNat)) := by
  have pos : s.height ≠ 0 := toNat_pos_iff.mp s.height_pos
  unfold setBaseline checkMetrics
  rw [if_neg pos, dif_neg (Nat.not_lt.mpr low)]
  rfl

/-- Every row can carry the baseline. -/
theorem setBaseline_of_lt {s : Sequence} {baseline : UInt8}
    (below : baseline.toNat < s.height.toNat) :
    s.setBaseline baseline = .ok { s with baseline, baseline_lt := below } := by
  have pos : s.height ≠ 0 := toNat_pos_iff.mp s.height_pos
  unfold setBaseline checkMetrics
  rw [if_neg pos, dif_pos below]
  rfl

def setPointSize (s : Sequence) (pointSize : UInt8) : Sequence :=
  { s with pointSize }

/-- The error of a glyph that is not as high as the sequence. -/
def heightMismatch (s : Sequence) (g : Glyph) : FontError :=
  .argument (.glyphHeight g.codepoint.toNat g.height.toNat s.height.toNat)

/-- The sequence with `g` stored under `codepoint`, for a glyph known to fit. -/
def withGlyph (s : Sequence) (codepoint : UInt8) (g : Glyph) (fits : g.height = s.height) :
    Sequence :=
  { s with
    glyphs := s.glyphs.set codepoint.toNat (g.withCodepoint codepoint)
      (toNat_lt_glyphCount codepoint)
    keyed := by
      intro i h
      rw [Vector.getElem_set]
      split
      · rename_i same
        simpa using same
      · exact s.keyed i h
    rows_eq := by
      intro i h
      rw [Vector.getElem_set]
      split
      · exact fits
      · exact s.rows_eq i h }

/-- Storing a glyph changes the glyph of its codepoint only. -/
theorem glyph_withGlyph (s : Sequence) (codepoint : UInt8) (g : Glyph)
    (fits : g.height = s.height) (c : UInt8) :
    (s.withGlyph codepoint g fits).glyph c =
      if c = codepoint then g.withCodepoint codepoint else s.glyph c := by
  unfold glyph withGlyph entry
  simp only
  rw [Vector.getElem_set]
  by_cases same : c = codepoint
  · simp [same]
  · have other : codepoint.toNat ≠ c.toNat := fun h => same (UInt8.toNat_inj.mp h.symm)
    simp [same, other]

/-- The sequence with `g` stored under `codepoint`. The glyph has to be as high
as the sequence. -/
def setGlyph (s : Sequence) (codepoint : UInt8) (g : Glyph) : Except FontError Sequence :=
  if fits : g.height = s.height then .ok (s.withGlyph codepoint g fits)
  else .error (s.heightMismatch g)

/-- The sequence with the glyph of `codepoint` replaced by its image under `f`. -/
def modifyGlyph (s : Sequence) (codepoint : UInt8) (f : Glyph → Glyph) :
    Except FontError Sequence :=
  s.setGlyph codepoint (f (s.glyph codepoint))

/-- The sequence with `g` stored under its own codepoint; the sequence itself if
the glyph does not fit. -/
def insert (s : Sequence) (g : Glyph) : Sequence :=
  if fits : g.height = s.height then s.withGlyph g.codepoint g fits else s

/-- The sequence with several glyphs stored, each under its own codepoint and in
order. All of them are checked before the first is stored. -/
def replaceGlyphs (s : Sequence) (glyphs : List Glyph) : Except FontError Sequence :=
  match glyphs.find? fun g => g.height != s.height with
  | some bad => .error (s.heightMismatch bad)
  | none => .ok (glyphs.foldl insert s)

/-- The sequence with height, baseline and all glyphs of `source`. The point size
stays. -/
def copyGlyphsFrom (s source : Sequence) : Sequence :=
  { source with pointSize := s.pointSize }

/-! ### Widths -/

/-- The smallest and the largest glyph width. -/
def widthRange (s : Sequence) : UInt8 × UInt8 :=
  s.glyphs.foldl
    (fun (least, greatest) g =>
      (if g.width < least then g.width else least,
        if greatest < g.width then g.width else greatest))
    (255, 0)

end Sequence

end BitmapFont
