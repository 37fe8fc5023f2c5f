import BitmapFont.Proofs.Glyph.Transcribing
import BitmapFont.Proofs.Stream.Acceptance

/-!
Streams that stand for one font.

A font does not show how its stream was laid out. `Redraft` lists four changes to
the records of a sequence: another order that keeps the order of the records for
one codepoint, leaving out a record that a later one overwrites, other bits beyond
the width of a glyph, and rows that lie closer together or further apart. A
`StreamForm.Variant` of a form results from any number of such changes, each in any
sequence. Main facts:

* `Redraft.lastGlyph_eq`: no change of the list touches the glyph that is stored
  last for a codepoint, by one case for each kind of change;
* `StreamForm.Variant.font_eq`: all variants of a form stand for one font;
* `Font.decode_of_variant`: what decodes to a font still does after all changes.
-/

namespace BitmapFont.FontStream

/-! ### Records -/

namespace RecordForm

/-- Row `y` of the bitmap with all its bytes, those beyond the glyph included. -/
def row (r : RecordForm) (y : Nat) : List UInt8 :=
  (r.bitmap.drop (y * r.pitch.toNat)).take r.pitch.toNat

/-- The record with another bitmap. -/
def withBitmap (r : RecordForm) (bitmap : List UInt8) : RecordForm :=
  { r with bitmap }

/-- The record with `height` rows that lie `pitch` bytes apart. Each old row is cut
there, and the bytes of `fill` follow it. -/
def withPitch (r : RecordForm) (height pitch : UInt8) (wide : pitchForWidth r.width ≤ pitch.toNat)
    (fill : Nat → List UInt8) : RecordForm :=
  { r with
    pitch
    bitmap := (List.range height.toNat).flatMap fun y => (r.row y).take pitch.toNat ++ fill y
    pitch_ge := wide }

/-- Records for one codepoint whose glyphs have the same pixels give one glyph. -/
theorem glyph_eq_of_pixels {r r' : RecordForm} {height : UInt8} (pos : 1 ≤ height.toNat)
    (codepoint : r'.codepoint = r.codepoint) (width : r'.width = r.width)
    (pixels : ∀ x y, x < r.width.toNat → y < height.toNat → r'.pixel x y = r.pixel x y) :
    r'.glyph height = r.glyph height := by
  have widths : (r'.glyph height).width = r.width := (r'.glyph_width height).trans width
  have rows : (r'.glyph height).height = height := atLeastOne_of_pos pos
  apply Glyph.ext_pixels codepoint
  · exact widths.trans (r.glyph_width height).symm
  · rfl
  · intro x y inside
    have hx : x < r.width.toNat := widths ▸ inside.1
    have hy : y < height.toNat := rows ▸ inside.2
    rw [r'.pixel_glyph (width ▸ hx) hy, r.pixel_glyph hx hy]
    exact pixels x y hx hy

variable {r : RecordForm} {height pitch : UInt8}

theorem length_row (stored : r.bitmap.length = r.pitch.toNat * height.toNat) {y : Nat}
    (hy : y < height.toNat) : (r.row y).length = r.pitch.toNat := by
  have := Nat.mul_le_mul_right r.pitch.toNat (Nat.succ_le_of_lt hy)
  rw [Nat.succ_mul, Nat.mul_comm height.toNat] at this
  unfold row
  rw [List.length_take, List.length_drop, stored]
  omega

/-- Where a row is cut or continued beyond the glyph, no pixel of the glyph changes. -/
theorem pixel_withPitch (stored : r.bitmap.length = r.pitch.toNat * height.toNat)
    (wide : pitchForWidth r.width ≤ pitch.toNat) {fill : Nat → List UInt8}
    (full : ∀ y < height.toNat, ((r.row y).take pitch.toNat ++ fill y).length = pitch.toNat)
    {x y : Nat} (hx : x < r.width.toNat) (hy : y < height.toNat) :
    (r.withPitch height pitch wide fill).pixel x y = r.pixel x y := by
  have inNew : x / 8 < pitch.toNat := Nat.lt_of_lt_of_le (div_lt_pitchForWidth hx) wide
  have inOld : x / 8 < r.pitch.toNat := Nat.lt_of_lt_of_le (div_lt_pitchForWidth hx) r.pitch_ge
  have inKept : x / 8 < ((r.row y).take pitch.toNat).length := by
    rw [List.length_take, length_row stored hy]
    exact Nat.lt_min.mpr ⟨inNew, inOld⟩
  have same : ((r.row y).take pitch.toNat).getD (x / 8) 0 =
      r.bitmap.getD (y * r.pitch.toNat + x / 8) 0 := by
    unfold row
    simp [List.getD_eq_getElem?_getD, inNew, inOld]
  have new : (r.withPitch height pitch wide fill).bitmap.getD (y * pitch.toNat + x / 8) 0 =
      ((r.row y).take pitch.toNat ++ fill y).getD (x / 8) 0 := getD_flatMap_range full hy inNew
  rw [List.getD_append _ _ _ _ inKept, same] at new
  exact congrArg (fun b : UInt8 => b.toNat.testBit (7 - x % 8)) new

end RecordForm

/-! ### Lists of records -/

/-- A change to the records of a sequence with `height` rows. -/
inductive Redraft (height : UInt8) : List RecordForm → List RecordForm → Prop
  /-- The records stand in another order, those for one codepoint in the same. -/
  | reordered {rs rs' : List RecordForm} (moved : rs'.Perm rs)
      (order : ∀ c : UInt8, (rs'.filter fun r => r.codepoint = c) =
        rs.filter fun r => r.codepoint = c) :
      Redraft height rs rs'
  /-- A record that a later one for its codepoint follows is left out. -/
  | dropped {front back : List RecordForm} {r later : RecordForm} (follows : later ∈ back)
      (same : later.codepoint = r.codepoint) :
      Redraft height (front ++ r :: back) (front ++ back)
  /-- The bytes of a bitmap differ in no bit that is a pixel of the glyph. -/
  | repadded {front back : List RecordForm} {r : RecordForm} {bitmap : List UInt8}
      (length : bitmap.length = r.bitmap.length)
      (kept : ∀ x y, x < r.width.toNat → y < height.toNat →
        (r.withBitmap bitmap).pixel x y = r.pixel x y) :
      Redraft height (front ++ r :: back) (front ++ r.withBitmap bitmap :: back)
  /-- The rows of a bitmap are cut, or continued by any bytes, to another pitch. -/
  | repitched {front back : List RecordForm} {r : RecordForm} {pitch : UInt8}
      {fill : Nat → List UInt8} (wide : pitchForWidth r.width ≤ pitch.toNat)
      (full : ∀ y < height.toNat, ((r.row y).take pitch.toNat ++ fill y).length = pitch.toNat) :
      Redraft height (front ++ r :: back) (front ++ r.withPitch height pitch wide fill :: back)

/-- The glyph that is stored last for a codepoint. -/
def lastGlyph (height : UInt8) (rs : List RecordForm) (c : UInt8) : Option Glyph :=
  ((rs.filter fun r => r.codepoint = c).map (·.glyph height)).getLast?

theorem lastGlyph_replaced {height : UInt8} {r r' : RecordForm} (front back : List RecordForm)
    (codepoint : r'.codepoint = r.codepoint) (same : r'.glyph height = r.glyph height) (c : UInt8) :
    lastGlyph height (front ++ r' :: back) c = lastGlyph height (front ++ r :: back) c := by
  unfold lastGlyph
  rw [List.filter_append, List.filter_append, List.filter_cons, List.filter_cons, codepoint]
  by_cases mine : r.codepoint = c
  · simp [mine, same]
  · simp [mine]

namespace Redraft

variable {height : UInt8} {rs rs' : List RecordForm}

theorem length_le (redraft : Redraft height rs rs') : rs'.length ≤ rs.length := by
  cases redraft with
  | reordered moved order => exact Nat.le_of_eq moved.length_eq
  | dropped follows same => simp
  | repadded length kept => simp
  | repitched wide full => simp

/-- After a change every bitmap still holds the rows of the sequence. -/
theorem length_bitmap (redraft : Redraft height rs rs')
    (stored : ∀ r ∈ rs, r.bitmap.length = r.pitch.toNat * height.toNat) :
    ∀ r ∈ rs', r.bitmap.length = r.pitch.toNat * height.toNat := by
  -- Where one record takes the place of another, only that one needs a look.
  have replaced : ∀ {front back : List RecordForm} {old new : RecordForm},
      (∀ r ∈ front ++ old :: back, r.bitmap.length = r.pitch.toNat * height.toNat) →
      new.bitmap.length = new.pitch.toNat * height.toNat →
      ∀ r ∈ front ++ new :: back, r.bitmap.length = r.pitch.toNat * height.toNat := by
    intro front back old new stored fits r mem
    rcases List.mem_append.mp mem with before | rest
    · exact stored r (List.mem_append_left _ before)
    · rcases List.mem_cons.mp rest with rfl | after
      · exact fits
      · exact stored r (List.mem_append_right _ (List.mem_cons_of_mem old after))
  cases redraft with
  | reordered moved order =>
      intro r mem
      exact stored r (moved.mem_iff.mp mem)
  | @dropped front back r later follows same =>
      intro kept mem
      rcases List.mem_append.mp mem with before | after
      · exact stored kept (List.mem_append_left _ before)
      · exact stored kept (List.mem_append_right _ (List.mem_cons_of_mem r after))
  | @repadded front back r bitmap length kept =>
      apply replaced stored
      exact length.trans (stored r (List.mem_append_right _ List.mem_cons_self))
  | @repitched front back r pitch fill wide full =>
      apply replaced stored
      exact (length_flatMap_range full).trans (Nat.mul_comm ..)

/-- After a change the last record for a codepoint gives the glyph it gave before. -/
theorem lastGlyph_eq (redraft : Redraft height rs rs') (pos : 1 ≤ height.toNat)
    (stored : ∀ r ∈ rs, r.bitmap.length = r.pitch.toNat * height.toNat) (c : UInt8) :
    lastGlyph height rs' c = lastGlyph height rs c := by
  cases redraft with
  | reordered moved order =>
      unfold lastGlyph
      rw [order]
  | @dropped front back r later follows same =>
      unfold lastGlyph
      rw [List.filter_append, List.filter_append, List.filter_cons]
      by_cases mine : r.codepoint = c
      · -- The later record stands in the rest, which therefore decides with or without `r`.
        have listed : later ∈ back.filter fun r => r.codepoint = c :=
          List.mem_filter.mpr ⟨follows, by simp [same, mine]⟩
        have some : (back.filter fun r => r.codepoint = c).map (·.glyph height) ≠ [] :=
          List.ne_nil_of_mem (List.mem_map_of_mem listed)
        rw [if_pos (by simp [mine]), List.map_append, List.map_append, List.map_cons,
          List.getLast?_append_of_ne_nil _ some, List.getLast?_append_of_ne_nil _ (by simp),
          List.getLast?_cons_of_ne_nil some]
      · rw [if_neg (by simp [mine])]
  | @repadded front back r bitmap length kept =>
      have codepoint : (r.withBitmap bitmap).codepoint = r.codepoint := rfl
      apply lastGlyph_replaced front back codepoint
      exact RecordForm.glyph_eq_of_pixels pos codepoint rfl kept
  | @repitched front back r pitch fill wide full =>
      have fits := stored r (List.mem_append_right _ List.mem_cons_self)
      have codepoint : (r.withPitch height pitch wide fill).codepoint = r.codepoint := rfl
      apply lastGlyph_replaced front back codepoint
      apply RecordForm.glyph_eq_of_pixels pos codepoint rfl
      intro x y hx hy
      exact RecordForm.pixel_withPitch fits wide full hx hy

end Redraft

/-! ### Sequences and streams -/

namespace SequenceForm

/-- The form with changed records. -/
def redraft (form : SequenceForm) {records : List RecordForm}
    (changed : Redraft form.height form.records records) : SequenceForm :=
  { form with
    records
    length_le := Nat.le_trans changed.length_le form.length_le
    length_bitmap := changed.length_bitmap form.length_bitmap }

theorem glyph_sequence_eq_lastGlyph (version : Version) (form : SequenceForm) (c : UInt8) :
    (form.sequence version).glyph c =
      (lastGlyph form.height form.records c).getD (Glyph.emptyDefault c form.height) := by
  rw [glyph_sequence]
  unfold lastGlyph record?
  rw [List.getLast?_map]
  cases (form.records.filter fun r => r.codepoint = c).getLast? with
  | none => rfl
  | some r => rfl

/-- A change of the records does not show in the sequence. -/
theorem sequence_redraft (version : Version) (form : SequenceForm) {records : List RecordForm}
    (changed : Redraft form.height form.records records) :
    (form.redraft changed).sequence version = form.sequence version := by
  have before := @describes_sequence version form
  have after := @describes_sequence version (form.redraft changed)
  apply Sequence.ext_glyphs
  · exact after.height.trans before.height.symm
  · exact UInt8.toNat_inj.mp (after.baseline.trans before.baseline.symm)
  · exact after.pointSize.trans before.pointSize.symm
  · intro c
    have same := changed.lastGlyph_eq form.height_pos form.length_bitmap c
    rw [glyph_sequence_eq_lastGlyph, glyph_sequence_eq_lastGlyph]
    exact congrArg (fun last => last.getD (Glyph.emptyDefault c form.height)) same

end SequenceForm

namespace StreamForm

/-- The form with changed records in the sequence at an index. -/
def redraft (form : StreamForm) (index : Nat) (inside : index < form.sequences.length)
    {records : List RecordForm}
    (changed : Redraft form.sequences[index].height form.sequences[index].records records) :
    StreamForm :=
  { form with
    sequences := form.sequences.set index (form.sequences[index].redraft changed)
    nonempty := by
      rw [List.length_set]
      exact form.nonempty
    length_le := by
      rw [List.length_set]
      exact form.length_le }

theorem font_redraft (form : StreamForm) {index : Nat} (inside : index < form.sequences.length)
    {records : List RecordForm}
    (changed : Redraft form.sequences[index].height form.sequences[index].records records) :
    (form.redraft index inside changed).font = form.font := by
  have sequences : (form.sequences.set index (form.sequences[index].redraft changed)).map
      (SequenceForm.sequence form.version) =
      form.sequences.map (SequenceForm.sequence form.version) := by
    rw [List.map_set, SequenceForm.sequence_redraft]
    refine List.ext_getElem (by simp) fun i hi hi' => ?_
    rw [List.getElem_set]
    split
    · rename_i here
      subst here
      rw [List.getElem_map]
    · rfl
  unfold font redraft
  simp only [sequences]

/-- The forms that any number of changes to the records lead to. -/
inductive Variant (form : StreamForm) : StreamForm → Prop
  | same : Variant form form
  | redrafted {mid : StreamForm} (index : Nat) (inside : index < mid.sequences.length)
      {records : List RecordForm}
      (changed : Redraft mid.sequences[index].height mid.sequences[index].records records) :
      Variant form mid → Variant form (mid.redraft index inside changed)

/-- All variants of a form stand for one font. -/
theorem Variant.font_eq {form form' : StreamForm} (variant : form.Variant form') :
    form'.font = form.font := by
  induction variant with
  | same => rfl
  | @redrafted mid index inside records changed variant ih =>
      rw [font_redraft mid inside changed]
      exact ih

end StreamForm

end BitmapFont.FontStream

namespace BitmapFont.Font

open FontStream

/-- A stream that decodes starts with the bytes of some form, and every stream that
starts with the bytes of a variant of that form decodes to the same font. -/
theorem decode_of_variant {stream : List UInt8} {f : Font} (decoded : decode stream = .ok f) :
    (∃ form : StreamForm, form.bytes <+: stream) ∧
      ∀ form : StreamForm, form.bytes <+: stream → ∀ form' : StreamForm, form.Variant form' →
        ∀ stream', form'.bytes <+: stream' → decode stream' = .ok f := by
  constructor
  · obtain ⟨form, start, -⟩ := decode_eq_ok_iff.mp decoded
    exact ⟨form, start⟩
  · intro form start form' variant stream' start'
    have mine : decode stream = .ok form.font := decode_eq_ok_iff.mpr ⟨form, start, rfl⟩
    have same : f = form.font := Except.ok.inj (decoded.symm.trans mine)
    apply decode_eq_ok_iff.mpr
    exact ⟨form', start', same.trans variant.font_eq.symm⟩

/-- The form `twiceRecordedForm` without its first record, the rows of the other one
a byte longer. -/
theorem decode_of_variant_once_recorded :
    decode twiceRecordedForm.bytes = .ok twiceRecordedForm.font ∧
      ∃ form : StreamForm, twiceRecordedForm.Variant form ∧
        form.bytes.drop 40 = [65, 9, 3, 0x80, 0x80, 0xAA, 0, 0x7F, 0xBB] ∧
        decode (form.bytes ++ [0xCC]) = .ok twiceRecordedForm.font := by
  have decoded : decode twiceRecordedForm.bytes = .ok twiceRecordedForm.font :=
    decode_eq_ok_iff.mpr ⟨twiceRecordedForm, List.prefix_rfl, rfl⟩
  have one : 0 < twiceRecordedForm.sequences.length := by decide
  let last : RecordForm :=
    { codepoint := 65, width := 9, pitch := 2, bitmap := [0x80, 0x80, 0, 0x7F]
      width_pos := by decide, pitch_ge := by decide }
  have dropped : Redraft 2 twiceRecordedForm.sequences[0].records [last] :=
    @Redraft.dropped 2 [] [last] _ last List.mem_cons_self rfl
  have repitched := @Redraft.repitched 2 [] [] last 3
    (fun y => if y = 0 then [0xAA] else [0xBB]) (by decide) (by decide)
  have first : twiceRecordedForm.Variant (twiceRecordedForm.redraft 0 one dropped) :=
    .redrafted 0 one dropped .same
  have variant := @StreamForm.Variant.redrafted _ (twiceRecordedForm.redraft 0 one dropped) 0 one _
    repitched first
  exact ⟨decoded, _, variant, rfl, (decode_of_variant decoded).2 twiceRecordedForm
    List.prefix_rfl _ variant _ (List.prefix_append _ _)⟩

end BitmapFont.Font
