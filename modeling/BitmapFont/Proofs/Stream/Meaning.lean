import BitmapFont.FontStream.Decode
import BitmapFont.Proofs.Font.Storing
import BitmapFont.Proofs.Stream.Form
import Mathlib.Data.List.TakeWhile

/-!
The font of a stream form.

`StreamForm.font` computes the font that a form stands for by storing the records
in order. Main facts:

* `SequenceForm.glyph_sequence`: after storing all records, each codepoint has the
  glyph of the last record for it;
* `SequenceForm.describes_sequence` and `SequenceForm.Describes.unique`: the computed
  sequence is what the form describes, and nothing else is;
* `StreamForm.describes_iff`: so it is for the font.
-/

namespace BitmapFont

namespace FontStream

theorem toNat_clampBaseline {height : UInt8} (baseline : UInt8) (pos : 1 ≤ height.toNat) :
    (clampBaseline height baseline).toNat = min baseline.toNat (height.toNat - 1) := by
  unfold clampBaseline
  split
  · omega
  · have le : (1 : UInt8) ≤ height := UInt8.le_iff_toNat_le.mpr pos
    rw [UInt8.toNat_sub_of_le _ _ le]
    change height.toNat - 1 = _
    omega

/-! ### Records -/

namespace RecordForm

/-- The glyph of a record in a sequence of the given height. -/
def glyph (r : RecordForm) (height : UInt8) : Glyph :=
  Glyph.fromPacked r.codepoint r.width height r.pitch.toNat r.bitmap.toArray

@[simp] theorem glyph_codepoint (r : RecordForm) (height : UInt8) :
    (r.glyph height).codepoint = r.codepoint := rfl

@[simp] theorem glyph_width (r : RecordForm) (height : UInt8) :
    (r.glyph height).width = r.width :=
  atLeastOne_of_pos r.width_pos

theorem pixel_glyph (r : RecordForm) {height : UInt8} {x y : Nat} (hx : x < r.width.toNat)
    (hy : y < height.toNat) : (r.glyph height).pixel x y = r.pixel x y := by
  have pos : 0 < height.toNat := by omega
  unfold glyph Glyph.fromPacked
  rw [Glyph.pixel_fromFn, atLeastOne_of_pos r.width_pos, atLeastOne_of_pos pos]
  simp only [hx, hy, decide_true, Bool.true_and]
  rw [Packing.bit_eq_testBit _ (Nat.mod_lt _ (by decide))]
  simp [pixel]

end RecordForm

theorem RecordForm.glyph_fits (r : RecordForm) (s : Sequence) :
    (r.glyph s.height).height = s.height :=
  Glyph.fromPacked_height _ _ _ _ s.height_pos

/-- The sequence with the glyph of a record stored. -/
def storeRecord (s : Sequence) (r : RecordForm) : Sequence :=
  s.withGlyph r.codepoint (r.glyph s.height) (r.glyph_fits s)

theorem storeRecord_eq_insert (s : Sequence) (r : RecordForm) :
    storeRecord s r = s.insert (r.glyph s.height) :=
  (dif_pos (r.glyph_fits s)).symm

/-- Storing records is storing their glyphs. -/
theorem foldl_storeRecord (records : List RecordForm) (s : Sequence) :
    records.foldl storeRecord s = (records.map (·.glyph s.height)).foldl Sequence.insert s := by
  induction records generalizing s with
  | nil => rfl
  | cons r rest ih =>
      have height := (s.sameMetrics_insert (r.glyph s.height)).height
      rw [List.foldl_cons, storeRecord_eq_insert, ih, height]
      rfl

/-- Of several records for one codepoint the last decides, and a codepoint without
a record keeps its glyph. -/
theorem glyph_foldl_storeRecord (records : List RecordForm) (s : Sequence) (c : UInt8) :
    (records.foldl storeRecord s).glyph c =
      ((records.filter fun r => r.codepoint = c).getLast?).elim (s.glyph c) (·.glyph s.height) := by
  have fits : ∀ g ∈ records.map (·.glyph s.height), g.height = s.height := by
    intro g mem
    obtain ⟨r, -, rfl⟩ := List.mem_map.mp mem
    exact r.glyph_fits s
  have filtered : (records.map (·.glyph s.height)).filter (fun g => g.codepoint = c) =
      (records.filter fun r => r.codepoint = c).map (·.glyph s.height) := List.filter_map
  rw [foldl_storeRecord, Sequence.glyph_foldl_insert fits, filtered, List.getLast?_map]
  cases (records.filter fun r => r.codepoint = c).getLast? with
  | none => rfl
  | some last => rfl

/-! ### Sequences -/

namespace SequenceForm

variable {version : Version}

/-- The point size that a form gives a sequence. -/
def sequencePointSize (version : Version) (form : SequenceForm) : UInt8 :=
  match version with
  | .legacy => form.height
  | .current => form.pointSize

theorem height_ne (form : SequenceForm) : form.height ≠ 0 :=
  toNat_pos_iff.mp form.height_pos

/-- The sequence of a form before its records are stored. -/
def base (version : Version) (form : SequenceForm) : Sequence :=
  Sequence.blank form.height (clampBaseline form.height form.baseline)
    (form.sequencePointSize version) (clampBaseline_lt form.baseline form.height_ne)

/-- The sequence that results from storing the records in order. -/
def sequence (version : Version) (form : SequenceForm) : Sequence :=
  form.records.foldl storeRecord (form.base version)

theorem sameMetrics_sequence (version : Version) (form : SequenceForm) :
    (form.base version).SameMetrics (form.sequence version) := by
  unfold sequence
  rw [foldl_storeRecord]
  exact Sequence.sameMetrics_foldl_insert _ _

theorem glyph_base (form : SequenceForm) (c : UInt8) :
    (form.base version).glyph c = Glyph.emptyDefault c form.height :=
  Sequence.glyph_blank _ _ c

/-- Each codepoint has the glyph of the last record for it. -/
theorem glyph_sequence (form : SequenceForm) (c : UInt8) :
    (form.sequence version).glyph c =
      (form.record? c).elim (Glyph.emptyDefault c form.height) (·.glyph form.height) := by
  unfold sequence record?
  rw [glyph_foldl_storeRecord, glyph_base]
  rfl

/-- A record that decides the glyph of a codepoint is a record for it. -/
theorem codepoint_of_record? {form : SequenceForm} {c : UInt8} {r : RecordForm}
    (last : form.record? c = some r) : r.codepoint = c := by
  have mem : r ∈ form.records.filter fun r => r.codepoint = c := List.mem_of_getLast? last
  simpa using (List.mem_filter.mp mem).2

theorem describes_sequence (form : SequenceForm) :
    form.Describes version (form.sequence version) where
  height := (form.sameMetrics_sequence version).height
  baseline := by
    rw [(form.sameMetrics_sequence version).baseline]
    exact toNat_clampBaseline form.baseline form.height_pos
  pointSize := (form.sameMetrics_sequence version).pointSize
  recorded := by
    intro c r last
    rw [glyph_sequence, last]
    exact ⟨r.glyph_width form.height, fun x y hx hy => r.pixel_glyph hx hy⟩
  unrecorded := by
    intro c missing
    rw [glyph_sequence, missing]
    refine ⟨?_, fun x y => Glyph.pixel_blank ..⟩
    change atLeastOne (if c = 32 then 8 else 6) = _
    split <;> rfl

/-- A form describes at most one sequence. -/
theorem Describes.unique {form : SequenceForm} {s t : Sequence} (hs : form.Describes version s)
    (ht : form.Describes version t) : s = t := by
  have height : s.height = t.height := hs.height.trans ht.height.symm
  have baseline : s.baseline = t.baseline :=
    UInt8.toNat_inj.mp (hs.baseline.trans ht.baseline.symm)
  refine Sequence.ext_glyphs height baseline (hs.pointSize.trans ht.pointSize.symm) fun c => ?_
  have codepoint : (s.glyph c).codepoint = (t.glyph c).codepoint := by simp
  have rows : (s.glyph c).height = (t.glyph c).height := by simp [height]
  cases last : form.record? c with
  | none =>
      obtain ⟨width, clear⟩ := hs.unrecorded c last
      obtain ⟨width', clear'⟩ := ht.unrecorded c last
      exact Glyph.ext_pixels codepoint (width.trans width'.symm) rows
        fun x y _ => (clear x y).trans (clear' x y).symm
  | some r =>
      obtain ⟨width, ink⟩ := hs.recorded c r last
      obtain ⟨width', ink'⟩ := ht.recorded c r last
      refine Glyph.ext_pixels codepoint (width.trans width'.symm) rows fun x y inside => ?_
      have hx : x < r.width.toNat := width ▸ inside.1
      have hy : y < form.height.toNat := by
        have := inside.2
        rwa [Sequence.glyph_height, hs.height] at this
      exact (ink x y hx hy).trans (ink' x y hx hy).symm

end SequenceForm

/-! ### Names -/

theorem storable_ofNat_iff {b : UInt8} : Storable (Char.ofNat b.toNat) ↔ b ≠ 0 ∧ b < 128 := by
  have all : ∀ n : Fin 256, Storable (Char.ofNat (UInt8.ofNat n).toNat) ↔
      UInt8.ofNat n ≠ 0 ∧ UInt8.ofNat n < 128 := by decide +kernel
  simpa using all ⟨b.toNat, b.toNat_lt⟩

theorem toNat_ofNat_byte (b : UInt8) : (Char.ofNat b.toNat).toNat = b.toNat := by
  have all : ∀ n : Fin 256, (Char.ofNat n).toNat = n := by decide +kernel
  exact all ⟨b.toNat, b.toNat_lt⟩

/-- A header field that is no longer than a name keeps all its ASCII bytes up to
the first NUL. -/
theorem toNat_chars_ofField {field : List UInt8} (fits : field.length ≤ maxNameLength) :
    (FontName.ofField field).chars.map Char.toNat =
      ((field.takeWhile (· != 0)).filter (· < 128)).map UInt8.toNat := by
  have storable : ∀ c ∈ ((field.takeWhile (· != 0)).filter (· < 128)).map
      fun b => Char.ofNat b.toNat, Storable c := by
    intro c mem
    obtain ⟨b, listed, rfl⟩ := List.mem_map.mp mem
    obtain ⟨before, ascii⟩ := List.mem_filter.mp listed
    exact storable_ofNat_iff.mpr
      ⟨by simpa using List.mem_takeWhile_imp before, of_decide_eq_true ascii⟩
  have short : (((field.takeWhile (· != 0)).filter (· < 128)).map
      fun b => Char.ofNat b.toNat).length ≤ maxNameLength := by
    rw [List.length_map]
    exact Nat.le_trans (List.length_filter_le _ _)
      (Nat.le_trans (List.takeWhile_sublist _).length_le fits)
  change ((storablePart _).take maxNameLength).map _ = _
  rw [storablePart_of_storable storable, List.take_of_length_le short, List.map_map]
  exact List.map_congr_left fun b _ => toNat_ofNat_byte b

/-! ### Streams -/

namespace StreamForm

/-- The font of a form. -/
def font (form : StreamForm) : Font where
  name := FontName.ofField form.name
  version := form.version
  flags := form.flags
  sequences := form.sequences.map (SequenceForm.sequence form.version)
  nonempty := by
    intro none
    have := form.nonempty
    simp [List.map_eq_nil_iff.mp none] at this

theorem describes_font (form : StreamForm) : form.Describes form.font where
  name := toNat_chars_ofField (Nat.le_of_eq form.length_name)
  version := rfl
  flags := rfl
  sequences := by
    change List.Forall₂ _ _ (List.map _ _)
    rw [List.forall₂_map_right_iff, List.forall₂_same]
    exact fun q _ => q.describes_sequence

/-- A form describes at most one font. -/
theorem Describes.unique {form : StreamForm} {f g : Font} (hf : form.Describes f)
    (hg : form.Describes g) : f = g := by
  have name : f.name = g.name := by
    refine FontName.ext_chars (List.map_injective_iff.mpr ?_ (hf.name.trans hg.name.symm))
    exact fun _ _ => Char.toNat_inj.mp
  have sequences : f.sequences = g.sequences := by
    refine List.right_unique_forall₂' (fun _ _ _ => ?_) hf.sequences hg.sequences
    exact SequenceForm.Describes.unique
  have version : f.version = g.version := hf.version.trans hg.version.symm
  have flags : f.flags = g.flags := hf.flags.trans hg.flags.symm
  cases f
  cases g
  simp_all only

theorem describes_iff {form : StreamForm} {f : Font} : form.Describes f ↔ f = form.font := by
  constructor
  · intro described
    exact described.unique form.describes_font
  · rintro rfl
    exact form.describes_font

end StreamForm

end FontStream

end BitmapFont
