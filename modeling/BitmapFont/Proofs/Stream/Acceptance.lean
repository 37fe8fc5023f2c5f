import BitmapFont.Proofs.Stream.Fields
import BitmapFont.Proofs.Stream.Meaning

/-!
The streams that are fonts.

Each reader of the decoder accepts exactly the bytes of one form and answers what
that form stands for: `run_record_eq_ok_iff`, `run_records_eq_ok_iff`,
`run_sequence_eq_ok_iff`, `run_sequences_eq_ok_iff` and `run_font_eq_ok_iff`, by
induction on the two counts. For a whole stream:

* `Font.decode_eq_ok_iff`: a stream decodes to a font exactly if a form of that
  font is a prefix of it;
* `Font.decode_accepts_forms`: a stream decodes exactly if some form is a prefix
  of it, and then to the font that the form describes.
-/

namespace BitmapFont

namespace FontStream

namespace Reader

variable {start stop : Cursor} {version : Version}

/-- A record reader accepts the bytes of a record whose bitmap has the rows of the
sequence, and stores its glyph. -/
theorem run_record_eq_ok_iff {index : Nat} {s t : Sequence} :
    (record index s).run start = .ok (t, stop) ↔
      ∃ r : RecordForm, r.bitmap.length = r.pitch.toNat * s.height.toNat ∧
        start.Takes r.bytes stop ∧ t = storeRecord s r := by
  unfold record
  constructor
  · intro accepted
    obtain ⟨codepoint, c₁, first, accepted⟩ := run_bind_eq_ok_iff.mp accepted
    obtain ⟨width, c₂, second, accepted⟩ := run_bind_eq_ok_iff.mp accepted
    obtain ⟨pitch, c₃, third, accepted⟩ := run_bind_eq_ok_iff.mp accepted
    rw [run_byte_eq_ok_iff] at first second third
    split at accepted
    · exact absurd accepted (run_fail_ne_ok _ _)
    rename_i width_ne
    split at accepted
    · exact absurd accepted (run_fail_ne_ok _ _)
    rename_i wide
    obtain ⟨bitmap, c₄, fourth, accepted⟩ := run_bind_eq_ok_iff.mp accepted
    obtain ⟨length, fourth⟩ := run_bytes_eq_ok_iff.mp fourth
    obtain ⟨rfl, rfl⟩ := run_pure_eq_ok_iff.mp accepted
    have width_pos : 1 ≤ width.toNat := toNat_pos_iff.mpr width_ne
    refine ⟨⟨codepoint, width, pitch, bitmap, width_pos, Nat.le_of_not_lt wide⟩, length, ?_, rfl⟩
    exact Cursor.takes_cons_iff.mpr ⟨c₁, first, Cursor.takes_cons_iff.mpr ⟨c₂, second,
      Cursor.takes_cons_iff.mpr ⟨c₃, third, fourth⟩⟩⟩
  · rintro ⟨r, length, taken, rfl⟩
    obtain ⟨c₁, first, taken⟩ := Cursor.takes_cons_iff.mp taken
    obtain ⟨c₂, second, taken⟩ := Cursor.takes_cons_iff.mp taken
    obtain ⟨c₃, third, taken⟩ := Cursor.takes_cons_iff.mp taken
    have width_ne : r.width ≠ 0 := toNat_pos_iff.mp r.width_pos
    refine run_bind_eq_ok_iff.mpr ⟨_, c₁, run_byte_eq_ok_iff.mpr first, ?_⟩
    refine run_bind_eq_ok_iff.mpr ⟨_, c₂, run_byte_eq_ok_iff.mpr second, ?_⟩
    refine run_bind_eq_ok_iff.mpr ⟨_, c₃, run_byte_eq_ok_iff.mpr third, ?_⟩
    rw [if_neg width_ne, if_neg (Nat.not_lt.mpr r.pitch_ge)]
    exact run_bind_eq_ok_iff.mpr ⟨_, stop, run_bytes_eq_ok_iff.mpr ⟨length, taken⟩,
      run_pure_eq_ok_iff.mpr ⟨rfl, rfl⟩⟩

theorem run_records_eq_ok_iff {index count : Nat} {s t : Sequence} :
    (records index count s).run start = .ok (t, stop) ↔
      ∃ rs : List RecordForm, rs.length = count ∧
        (∀ r ∈ rs, r.bitmap.length = r.pitch.toNat * s.height.toNat) ∧
        start.Takes (rs.flatMap RecordForm.bytes) stop ∧ t = rs.foldl storeRecord s := by
  induction count generalizing s start with
  | zero =>
      constructor
      · intro accepted
        obtain ⟨rfl, rfl⟩ := run_pure_eq_ok_iff.mp accepted
        exact ⟨[], rfl, by simp, Cursor.takes_nil_iff.mpr rfl, rfl⟩
      · rintro ⟨rs, none, -, taken, rfl⟩
        cases List.length_eq_zero_iff.mp none
        exact run_pure_eq_ok_iff.mpr ⟨rfl, Cursor.takes_nil_iff.mp taken⟩
  | succ count ih =>
      constructor
      · intro accepted
        obtain ⟨u, mid, first, accepted⟩ := run_bind_eq_ok_iff.mp accepted
        obtain ⟨r, length, taken, rfl⟩ := run_record_eq_ok_iff.mp first
        obtain ⟨rs, rfl, lengths, rest, rfl⟩ := ih.mp accepted
        refine ⟨r :: rs, rfl, ?_, Cursor.takes_append_iff.mpr ⟨mid, taken, rest⟩, rfl⟩
        exact List.forall_mem_cons.mpr ⟨length, lengths⟩
      · rintro ⟨rs, counted, lengths, taken, rfl⟩
        cases rs with
        | nil => simp at counted
        | cons r rs =>
            obtain ⟨length, lengths⟩ := List.forall_mem_cons.mp lengths
            obtain ⟨mid, first, rest⟩ := Cursor.takes_append_iff.mp taken
            refine run_bind_eq_ok_iff.mpr ⟨storeRecord s r, mid, ?_, ?_⟩
            · exact run_record_eq_ok_iff.mpr ⟨r, length, first, rfl⟩
            · exact ih.mpr ⟨rs, Nat.succ.inj counted, lengths, rest, rfl⟩

/-- The point size is a field of its own only in the current layout. -/
theorem run_pointSize_eq_ok_iff {height size : UInt8} :
    (pointSize version height).run start = .ok (size, stop) ↔
      (version = .legacy → size = height) ∧
        start.Takes (match version with
          | .legacy => []
          | .current => [size]) stop := by
  cases version with
  | legacy =>
      rw [Cursor.takes_nil_iff]
      refine run_pure_eq_ok_iff.trans (and_congr_left fun _ => ?_)
      exact ⟨fun same _ => same, fun same => same rfl⟩
  | current =>
      refine run_byte_eq_ok_iff.trans ?_
      simp

/-- A sequence reader accepts the bytes of a sequence form and answers its
sequence. -/
theorem run_sequence_eq_ok_iff {index : Nat} {s : Sequence} :
    (sequence version index).run start = .ok (s, stop) ↔
      ∃ form : SequenceForm, start.Takes (form.bytes version) stop ∧ s = form.sequence version := by
  unfold sequence
  constructor
  · intro accepted
    obtain ⟨height, c₁, first, accepted⟩ := run_bind_eq_ok_iff.mp accepted
    obtain ⟨baseline, c₂, second, accepted⟩ := run_bind_eq_ok_iff.mp accepted
    obtain ⟨pointSize, c₃, third, accepted⟩ := run_bind_eq_ok_iff.mp accepted
    obtain ⟨count, c₄, fourth, accepted⟩ := run_bind_eq_ok_iff.mp accepted
    rw [run_byte_eq_ok_iff] at first second
    obtain ⟨legacy, third⟩ := run_pointSize_eq_ok_iff.mp third
    obtain ⟨-, fourth⟩ := run_word_eq_ok_iff.mp fourth
    split at accepted
    · exact absurd accepted (run_fail_ne_ok _ _)
    rename_i height_ne
    split at accepted
    · exact absurd accepted (run_fail_ne_ok _ _)
    rename_i few
    obtain ⟨rs, rfl, lengths, fifth, rfl⟩ := run_records_eq_ok_iff.mp accepted
    have height_pos : 1 ≤ height.toNat := toNat_pos_iff.mpr height_ne
    refine ⟨⟨height, baseline, pointSize, rs, height_pos, Nat.le_of_not_lt few, lengths⟩, ?_, ?_⟩
    · refine Cursor.takes_append_iff.mpr ⟨c₄, Cursor.takes_append_iff.mpr ⟨c₃, ?_, fourth⟩, fifth⟩
      exact Cursor.takes_cons_iff.mpr ⟨c₁, first, Cursor.takes_cons_iff.mpr ⟨c₂, second, third⟩⟩
    · cases version with
      | legacy =>
          cases legacy rfl
          rfl
      | current => rfl
  · rintro ⟨form, taken, rfl⟩
    obtain ⟨c₄, taken, fifth⟩ := Cursor.takes_append_iff.mp taken
    obtain ⟨c₃, taken, fourth⟩ := Cursor.takes_append_iff.mp taken
    obtain ⟨c₁, first, taken⟩ := Cursor.takes_cons_iff.mp taken
    obtain ⟨c₂, second, third⟩ := Cursor.takes_cons_iff.mp taken
    have fits : form.records.length ≤ maxWord := Nat.le_trans form.length_le (by decide)
    refine run_bind_eq_ok_iff.mpr ⟨_, c₁, run_byte_eq_ok_iff.mpr first, ?_⟩
    refine run_bind_eq_ok_iff.mpr ⟨_, c₂, run_byte_eq_ok_iff.mpr second, ?_⟩
    refine run_bind_eq_ok_iff.mpr ⟨form.sequencePointSize version, c₃, ?_, ?_⟩
    · refine run_pointSize_eq_ok_iff.mpr ?_
      cases version with
      | legacy => exact ⟨fun _ => rfl, third⟩
      | current => exact ⟨nofun, third⟩
    refine run_bind_eq_ok_iff.mpr ⟨_, c₄, run_word_eq_ok_iff.mpr ⟨fits, fourth⟩, ?_⟩
    rw [dif_neg form.height_ne, if_neg (Nat.not_lt.mpr form.length_le)]
    exact run_records_eq_ok_iff.mpr ⟨form.records, rfl, form.length_bitmap, fifth, rfl⟩

theorem run_sequences_eq_ok_iff {index count : Nat} {list : List Sequence} :
    (sequences version index count).run start = .ok (list, stop) ↔
      ∃ forms : List SequenceForm, forms.length = count ∧
        start.Takes (forms.flatMap (SequenceForm.bytes version)) stop ∧
        list = forms.map (SequenceForm.sequence version) := by
  induction count generalizing index start list with
  | zero =>
      constructor
      · intro accepted
        obtain ⟨rfl, rfl⟩ := run_pure_eq_ok_iff.mp accepted
        exact ⟨[], rfl, Cursor.takes_nil_iff.mpr rfl, rfl⟩
      · rintro ⟨forms, none, taken, rfl⟩
        cases List.length_eq_zero_iff.mp none
        exact run_pure_eq_ok_iff.mpr ⟨rfl, Cursor.takes_nil_iff.mp taken⟩
  | succ count ih =>
      constructor
      · intro accepted
        obtain ⟨s, mid, first, accepted⟩ := run_bind_eq_ok_iff.mp accepted
        obtain ⟨rest, last, others, accepted⟩ := run_bind_eq_ok_iff.mp accepted
        obtain ⟨rfl, rfl⟩ := run_pure_eq_ok_iff.mp accepted
        obtain ⟨form, taken, rfl⟩ := run_sequence_eq_ok_iff.mp first
        obtain ⟨forms, rfl, taken', rfl⟩ := ih.mp others
        exact ⟨form :: forms, rfl, Cursor.takes_append_iff.mpr ⟨mid, taken, taken'⟩, rfl⟩
      · rintro ⟨forms, counted, taken, rfl⟩
        cases forms with
        | nil => simp at counted
        | cons form forms =>
            obtain ⟨mid, first, rest⟩ := Cursor.takes_append_iff.mp taken
            refine run_bind_eq_ok_iff.mpr ⟨form.sequence version, mid, ?_, ?_⟩
            · exact run_sequence_eq_ok_iff.mpr ⟨form, first, rfl⟩
            · refine run_bind_eq_ok_iff.mpr
                ⟨forms.map (SequenceForm.sequence version), stop, ?_, ?_⟩
              · exact ih.mpr ⟨forms, Nat.succ.inj counted, rest, rfl⟩
              · exact run_pure_eq_ok_iff.mpr ⟨rfl, rfl⟩

/-- The font reader accepts the bytes of a stream form and answers its font. -/
theorem run_font_eq_ok_iff {f : Font} :
    font.run start = .ok (f, stop) ↔
      ∃ form : StreamForm, start.Takes form.bytes stop ∧ f = form.font := by
  unfold font
  constructor
  · intro accepted
    obtain ⟨mark, c₁, first, accepted⟩ := run_bind_eq_ok_iff.mp accepted
    obtain ⟨-, first⟩ := run_bytes_eq_ok_iff.mp first
    split at accepted
    · exact absurd accepted (run_fail_ne_ok _ _)
    rename_i marked
    obtain ⟨name, c₂, second, accepted⟩ := run_bind_eq_ok_iff.mp accepted
    obtain ⟨length_name, second⟩ := run_bytes_eq_ok_iff.mp second
    obtain ⟨code, c₃, third, accepted⟩ := run_bind_eq_ok_iff.mp accepted
    split at accepted
    · exact absurd accepted (run_fail_ne_ok _ _)
    rename_i version known
    obtain ⟨flags, c₄, fourth, accepted⟩ := run_bind_eq_ok_iff.mp accepted
    obtain ⟨total, c₅, fifth, accepted⟩ := run_bind_eq_ok_iff.mp accepted
    rw [run_byte_eq_ok_iff] at third fourth
    obtain ⟨fits, fifth⟩ := run_word_eq_ok_iff.mp fifth
    cases total with
    | zero => exact absurd accepted (run_fail_ne_ok _ _)
    | succ count =>
        obtain ⟨q, c₆, sixth, accepted⟩ := run_bind_eq_ok_iff.mp accepted
        obtain ⟨qs, c₇, seventh, accepted⟩ := run_bind_eq_ok_iff.mp accepted
        obtain ⟨rfl, rfl⟩ := run_pure_eq_ok_iff.mp accepted
        obtain ⟨block, blockTaken, rfl⟩ := run_sequence_eq_ok_iff.mp sixth
        obtain ⟨blocks, rfl, blocksTaken, rfl⟩ := run_sequences_eq_ok_iff.mp seventh
        cases Version.eq_code_of_ofCode? known
        cases Decidable.not_not.mp marked
        refine ⟨⟨name, version, flags, block :: blocks, length_name, ?_, fits⟩, ?_, rfl⟩
        · exact Nat.succ_pos _
        · refine Cursor.takes_append_iff.mpr ⟨c₅, Cursor.takes_append_iff.mpr ⟨c₄, ?_, fifth⟩,
            Cursor.takes_append_iff.mpr ⟨c₆, blockTaken, blocksTaken⟩⟩
          exact Cursor.takes_append_iff.mpr ⟨c₂, Cursor.takes_append_iff.mpr ⟨c₁, first, second⟩,
            Cursor.takes_cons_iff.mpr ⟨c₃, third, fourth⟩⟩
  · rintro ⟨form, taken, rfl⟩
    obtain ⟨c₅, taken, rest⟩ := Cursor.takes_append_iff.mp taken
    obtain ⟨c₄, taken, fifth⟩ := Cursor.takes_append_iff.mp taken
    obtain ⟨c₂, taken, codes⟩ := Cursor.takes_append_iff.mp taken
    obtain ⟨c₁, first, second⟩ := Cursor.takes_append_iff.mp taken
    obtain ⟨c₃, third, fourth⟩ := Cursor.takes_cons_iff.mp codes
    refine run_bind_eq_ok_iff.mpr ⟨magic, c₁, run_bytes_eq_ok_iff.mpr ⟨rfl, first⟩, ?_⟩
    rw [if_neg (not_not_intro rfl)]
    refine run_bind_eq_ok_iff.mpr
      ⟨_, c₂, run_bytes_eq_ok_iff.mpr ⟨form.length_name, second⟩, ?_⟩
    refine run_bind_eq_ok_iff.mpr ⟨_, c₃, run_byte_eq_ok_iff.mpr third, ?_⟩
    rw [Version.ofCode?_code]
    refine run_bind_eq_ok_iff.mpr ⟨_, c₄, run_byte_eq_ok_iff.mpr fourth, ?_⟩
    refine run_bind_eq_ok_iff.mpr ⟨_, c₅, run_word_eq_ok_iff.mpr ⟨form.length_le, fifth⟩, ?_⟩
    obtain ⟨name, version, flags, blocks, length_name, nonempty, length_le⟩ := form
    cases blocks with
    | nil => simp at nonempty
    | cons block blocks =>
        obtain ⟨c₆, sixth, seventh⟩ := Cursor.takes_append_iff.mp rest
        refine run_bind_eq_ok_iff.mpr
          ⟨_, c₆, run_sequence_eq_ok_iff.mpr ⟨block, sixth, rfl⟩, ?_⟩
        refine run_bind_eq_ok_iff.mpr
          ⟨_, stop, run_sequences_eq_ok_iff.mpr ⟨blocks, rfl, seventh, rfl⟩, ?_⟩
        exact run_pure_eq_ok_iff.mpr ⟨rfl, rfl⟩

end Reader

end FontStream

namespace Font

open FontStream

/-- A stream decodes to the font that the font reader answers. -/
theorem decode_eq_ok_iff_run {stream : List UInt8} {f : Font} :
    decode stream = .ok f ↔
      ∃ stop, Reader.font.run { rest := stream, offset := 0 } = .ok (f, stop) := by
  unfold decode
  cases Reader.font.run { rest := stream, offset := 0 } with
  | error cause => simp [Except.map]
  | ok answer => simp [Except.map, Prod.ext_iff]

/-- A stream decodes to a font exactly if it starts with a form of that font. -/
theorem decode_eq_ok_iff {stream : List UInt8} {f : Font} :
    decode stream = .ok f ↔ ∃ form : StreamForm, form.bytes <+: stream ∧ f = form.font := by
  rw [decode_eq_ok_iff_run]
  constructor
  · rintro ⟨stop, accepted⟩
    obtain ⟨form, taken, rfl⟩ := Reader.run_font_eq_ok_iff.mp accepted
    exact ⟨form, Cursor.exists_takes_iff.mp ⟨stop, taken⟩, rfl⟩
  · rintro ⟨form, start, rfl⟩
    obtain ⟨stop, taken⟩ := Cursor.exists_takes_iff.mpr start
    exact ⟨stop, Reader.run_font_eq_ok_iff.mpr ⟨form, taken, rfl⟩⟩

/-- A stream decodes exactly if it starts with the bytes of some form, and then to
the one font that this form describes. -/
theorem decode_accepts_forms (stream : List UInt8) :
    ((∃ f, decode stream = .ok f) ↔ ∃ form : StreamForm, form.bytes <+: stream) ∧
      ∀ form : StreamForm, form.bytes <+: stream →
        ∀ f, decode stream = .ok f ↔ form.Describes f := by
  refine ⟨⟨?_, ?_⟩, ?_⟩
  · rintro ⟨f, decoded⟩
    obtain ⟨form, start, -⟩ := decode_eq_ok_iff.mp decoded
    exact ⟨form, start⟩
  · rintro ⟨form, start⟩
    exact ⟨form.font, decode_eq_ok_iff.mpr ⟨form, start, rfl⟩⟩
  · intro form start f
    have decoded : decode stream = .ok form.font := decode_eq_ok_iff.mpr ⟨form, start, rfl⟩
    rw [StreamForm.describes_iff, decoded, Except.ok.injEq]
    exact eq_comm

/-- A legacy stream whose name field has a byte that is no ASCII, whose baseline
lies below the last row, and whose only codepoint has two records. -/
def twiceRecordedForm : StreamForm where
  name := [0x41, 0xC8, 0x42] ++ List.replicate 25 0
  version := .legacy
  flags := 7
  sequences := [{
    height := 2
    baseline := 9
    pointSize := 0
    records := [
      { codepoint := 65, width := 3, pitch := 2, bitmap := [0xFF, 0xFF, 0x40, 0],
        width_pos := by decide, pitch_ge := by decide },
      { codepoint := 65, width := 9, pitch := 2, bitmap := [0x80, 0x80, 0, 0x7F],
        width_pos := by decide, pitch_ge := by decide }]
    height_pos := by decide
    length_le := by decide
    length_bitmap := by decide }]
  length_name := by decide
  nonempty := by decide
  length_le := by decide

theorem decode_twice_recorded :
    twiceRecordedForm.bytes <+: twiceRecordedForm.bytes ++ [0xAA] ∧
      (∃ f, decode (twiceRecordedForm.bytes ++ [0xAA]) = .ok f) ∧
      ∀ f, decode (twiceRecordedForm.bytes ++ [0xAA]) = .ok f ↔ twiceRecordedForm.Describes f :=
  have start : twiceRecordedForm.bytes <+: twiceRecordedForm.bytes ++ [0xAA] := by decide
  ⟨start, (decode_accepts_forms _).1.mpr ⟨twiceRecordedForm, start⟩,
    (decode_accepts_forms _).2 twiceRecordedForm start⟩

end Font

end BitmapFont
