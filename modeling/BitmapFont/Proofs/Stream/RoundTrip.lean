import BitmapFont.Proofs.Stream.Acceptance

/-!
Reading back what was written.

The encoder writes one form: records in the order of their codepoints, each with
the smallest pitch (`RecordForm.ofGlyph`, `SequenceForm.ofSequence`,
`StreamForm.ofFont`). Main facts:

* `StreamForm.font_ofFont`: the form of a font stands for that font under the
  version it was written in;
* `Font.encodeAs_eq_ok`, `Font.decode_bytes`: a font is encoded as the bytes of its form,
  and the bytes of a form decode to the font that it stands for;
* `Font.decode_encode`: the current layout loses nothing but the version, and
  encoding what was decoded is a fixed point.
-/

namespace BitmapFont

namespace FontName

/-- The characters of a name are those of its bytes. -/
theorem map_ofNat_bytes (name : FontName) :
    name.bytes.map (fun b => Char.ofNat b.toNat) = name.chars := by
  rw [bytes_eq, List.map_map]
  refine (List.map_congr_left fun c hc => ?_).trans (List.map_id _)
  simp only [Function.comp, toNat_ofNat_of_storable (name.storable c hc), Char.ofNat_toNat, id]

/-- The field of a name is read as that name. -/
theorem ofField_field (name : FontName) : ofField name.field = name := by
  have kept : name.field.takeWhile (· != 0) = name.bytes := by
    rw [field_eq, List.takeWhile_append_of_pos fun b hb => by simpa using (mem_bytes hb).1]
    cases maxNameLength - name.chars.length with
    | zero => simp
    | succ n => simp [List.replicate_succ]
  have ascii : name.bytes.filter (· < 128) = name.bytes :=
    List.filter_eq_self.mpr fun b hb => decide_eq_true (mem_bytes hb).2
  unfold ofField
  rw [kept, ascii, map_ofNat_bytes, ofChars_chars]

end FontName

namespace FontStream

/-! ### Records -/

namespace RecordForm

theorem toNat_pitch (g : Glyph) : (UInt8.ofNat g.pitch).toNat = g.pitch := by
  have := pitchForWidth_le g.width
  rw [UInt8.toNat_ofNat', Nat.mod_eq_of_lt]
  unfold Glyph.pitch
  omega

/-- The record that a glyph is written as. -/
def ofGlyph (g : Glyph) : RecordForm where
  codepoint := g.codepoint
  width := g.width
  pitch := UInt8.ofNat g.pitch
  bitmap := g.data.toList
  width_pos := g.width_pos
  pitch_ge := Nat.le_of_eq (toNat_pitch g).symm

theorem length_bitmap_ofGlyph (g : Glyph) :
    (ofGlyph g).bitmap.length = (ofGlyph g).pitch.toNat * g.height.toNat := by
  change g.data.toList.length = (UInt8.ofNat g.pitch).toNat * g.height.toNat
  rw [toNat_pitch, Array.length_toList, g.size_data, Glyph.pitch]

/-- The record of a glyph holds its pixels. -/
theorem pixel_ofGlyph (g : Glyph) {x y : Nat} (inside : g.InBounds x y) :
    (ofGlyph g).pixel x y = g.pixel x y := by
  have hx : x < 8 * g.pitch := Nat.lt_of_lt_of_le inside.1 (le_pitchForWidth g.width)
  rw [← g.bit_data hx inside.2, Packing.bit_eq_testBit _ (Nat.mod_lt _ (by decide))]
  unfold pixel ofGlyph
  simp only [toNat_pitch]
  simp

theorem glyph_ofGlyph (g : Glyph) : (ofGlyph g).glyph g.height = g := by
  have width : ((ofGlyph g).glyph g.height).width = g.width := glyph_width _ _
  have height : ((ofGlyph g).glyph g.height).height = g.height := g.atLeastOne_height
  refine Glyph.ext_pixels rfl width height fun x y inside => ?_
  have inBounds : g.InBounds x y := ⟨width ▸ inside.1, height ▸ inside.2⟩
  rw [pixel_glyph _ inBounds.1 inBounds.2, pixel_ofGlyph g inBounds]

end RecordForm

/-! ### Sequences -/

namespace SequenceForm

/-- The form that a sequence is written in. -/
def ofSequence (s : Sequence) : SequenceForm where
  height := s.height
  baseline := s.baseline
  pointSize := s.pointSize
  records := s.glyphs.toList.map RecordForm.ofGlyph
  height_pos := s.height_pos
  length_le := by simp
  length_bitmap := by
    intro r mem
    obtain ⟨g, listed, rfl⟩ := List.mem_map.mp mem
    rw [RecordForm.length_bitmap_ofGlyph, Sequence.eq_glyph_of_mem listed, Sequence.glyph_height]

theorem bytes_ofSequence (version : Version) (s : Sequence) :
    (ofSequence s).bytes version = sequenceBlock version s := by
  have count : (ofSequence s).records.length = glyphCount := by simp [ofSequence]
  have records : (ofSequence s).records.flatMap RecordForm.bytes =
      s.glyphs.toList.flatMap glyphRecord := by
    simp only [ofSequence, List.flatMap_map]
    rfl
  unfold bytes sequenceBlock
  rw [count, records]
  cases version <;> rfl

/-- The one record for a codepoint holds its glyph. -/
theorem record?_ofSequence (s : Sequence) (c : UInt8) :
    (ofSequence s).record? c = some (RecordForm.ofGlyph (s.glyph c)) := by
  cases last : (ofSequence s).record? c with
  | none =>
      have none := List.getLast?_eq_none_iff.mp last
      have listed : RecordForm.ofGlyph (s.glyph c) ∈ (ofSequence s).records :=
        List.mem_map_of_mem (s.glyph_mem c)
      exact absurd (List.filter_eq_nil_iff.mp none _ listed) (by simp [RecordForm.ofGlyph])
  | some r =>
      have codepoint := codepoint_of_record? last
      have mem : r ∈ (ofSequence s).records :=
        (List.mem_filter.mp (List.mem_of_getLast? last)).1
      obtain ⟨g, listed, rfl⟩ := List.mem_map.mp mem
      have same : g = s.glyph c := codepoint ▸ Sequence.eq_glyph_of_mem listed
      rw [same]

/-- A sequence is written in a form that stands for it, up to the point size that a
legacy stream lacks. -/
theorem sequence_ofSequence (version : Version) (s : Sequence) :
    (ofSequence s).sequence version =
      s.setPointSize ((ofSequence s).sequencePointSize version) := by
  have metrics := (ofSequence s).sameMetrics_sequence version
  apply Sequence.ext_glyphs
  · exact metrics.height
  · exact metrics.baseline.trans (if_pos s.baseline_lt)
  · exact metrics.pointSize
  · intro c
    rw [glyph_sequence, record?_ofSequence]
    have height : (ofSequence s).height = (s.glyph c).height := (s.glyph_height c).symm
    rw [height]
    exact RecordForm.glyph_ofGlyph (s.glyph c)

end SequenceForm

/-! ### Streams -/

namespace StreamForm

/-- The form that a font is written in. -/
def ofFont (version : Version) (f : Font) (fits : f.sequences.length ≤ maxWord) : StreamForm where
  name := f.name.field
  version := version
  flags := f.flags
  sequences := f.sequences.map SequenceForm.ofSequence
  length_name := f.name.length_field
  nonempty := by
    rw [List.length_map]
    exact f.sequenceCount_pos
  length_le := by
    rw [List.length_map]
    exact fits

variable {version : Version} {f : Font}

theorem bytes_ofFont (fits : f.sequences.length ≤ maxWord) :
    (ofFont version f fits).bytes =
      header version f ++ f.sequences.flatMap (sequenceBlock version) := by
  have blocks : (f.sequences.map SequenceForm.ofSequence).flatMap (SequenceForm.bytes version) =
      f.sequences.flatMap (sequenceBlock version) := by
    rw [List.flatMap_map]
    exact congrArg (f.sequences.flatMap ·) (funext (SequenceForm.bytes_ofSequence version))
  unfold bytes ofFont header
  simp only [blocks, List.length_map]

/-- A font is written in a form that stands for it, up to the version and what a
legacy stream lacks. -/
theorem font_ofFont (fits : f.sequences.length ≤ maxWord) :
    (ofFont version f fits).font =
      { f with
        version
        sequences := f.sequences.map fun s =>
          s.setPointSize ((SequenceForm.ofSequence s).sequencePointSize version)
        nonempty := by simpa using f.nonempty } := by
  have sequences : (f.sequences.map SequenceForm.ofSequence).map (SequenceForm.sequence version) =
      f.sequences.map fun s =>
        s.setPointSize ((SequenceForm.ofSequence s).sequencePointSize version) := by
    rw [List.map_map]
    exact List.map_congr_left fun s _ => SequenceForm.sequence_ofSequence version s
  unfold font ofFont
  simp only [sequences, FontName.ofField_field]

/-- In the current layout nothing is lost but the version. -/
theorem font_ofFont_current (fits : f.sequences.length ≤ maxWord) :
    (ofFont .current f fits).font = { f with version := .current } := by
  have sequences : (f.sequences.map fun s =>
      s.setPointSize ((SequenceForm.ofSequence s).sequencePointSize .current)) = f.sequences :=
    List.map_id _
  rw [font_ofFont]
  simp only [sequences]

end StreamForm

end FontStream

namespace Font

open FontStream

/-- Every font whose sequences the header can count is written, in the form that
`StreamForm.ofFont` gives it. -/
theorem encodeAs_eq_ok (version : Version) (f : Font) (fits : f.sequences.length ≤ maxWord) :
    f.encodeAs version = .ok (StreamForm.ofFont version f fits).bytes := by
  unfold encodeAs
  rw [if_pos fits, StreamForm.bytes_ofFont]

theorem decode_bytes (form : StreamForm) : decode form.bytes = .ok form.font :=
  decode_eq_ok_iff.mpr ⟨form, List.prefix_rfl, rfl⟩

/-- A stream cannot hold more sequences than the header can count. -/
theorem length_le_of_decode {stream : List UInt8} {f : Font} (decoded : decode stream = .ok f) :
    f.sequences.length ≤ maxWord := by
  obtain ⟨form, -, rfl⟩ := decode_eq_ok_iff.mp decoded
  unfold StreamForm.font
  rw [List.length_map]
  exact form.length_le

/-- What is encoded decodes to the font, in the current version. -/
theorem decode_of_encode {f : Font} {stream : List UInt8} (encoded : f.encode = .ok stream) :
    decode stream = .ok { f with version := .current } := by
  by_cases fits : f.sequences.length ≤ maxWord
  · have written := encodeAs_eq_ok .current f fits
    rw [show f.encodeAs .current = .ok stream from encoded] at written
    rw [Except.ok.inj written, decode_bytes, StreamForm.font_ofFont_current]
  · unfold encode encodeAs at encoded
    rw [if_neg fits] at encoded
    cases encoded

/-- Every font with at most 65535 sequences is encoded, and decoding the stream
gives the font back under the current version. Encoding a decoded font is a fixed
point of decoding and encoding. -/
theorem decode_encode :
    (∀ f : Font, f.sequences.length ≤ 65535 →
      ∃ stream, f.encode = .ok stream ∧ decode stream = .ok { f with version := .current } ∧
        (f.version = .current → decode stream = .ok f)) ∧
    ∀ stream f, decode stream = .ok f →
      ∃ again, f.encode = .ok again ∧ ∃ g, decode again = .ok g ∧ g.encode = .ok again := by
  have roundTrip : ∀ (f : Font) (fits : f.sequences.length ≤ maxWord),
      decode (StreamForm.ofFont .current f fits).bytes = .ok { f with version := .current } := by
    intro f fits
    rw [decode_bytes, StreamForm.font_ofFont_current]
  constructor
  · intro f fits
    refine ⟨_, encodeAs_eq_ok .current f fits, roundTrip f fits, ?_⟩
    intro current
    rw [roundTrip f fits, ← current]
  · intro stream f decoded
    have fits := length_le_of_decode decoded
    refine ⟨_, encodeAs_eq_ok .current f fits, _, roundTrip f fits, ?_⟩
    exact encodeAs_eq_ok .current { f with version := .current } fits

theorem decode_encode_untitled :
    (untitled.sequences.length ≤ 65535 ∧
      ∃ stream, untitled.encode = .ok stream ∧ decode stream = .ok untitled) ∧
    decode twiceRecordedForm.bytes = .ok twiceRecordedForm.font ∧
      ∃ again, twiceRecordedForm.font.encode = .ok again ∧
        ∃ g, decode again = .ok g ∧ g.encode = .ok again := by
  have one : untitled.sequences.length ≤ 65535 := by decide
  have decoded := decode_bytes twiceRecordedForm
  obtain ⟨stream, encoded, -, same⟩ := decode_encode.1 untitled one
  exact ⟨⟨one, stream, encoded, same rfl⟩, decoded, decode_encode.2 _ _ decoded⟩

end Font

end BitmapFont
