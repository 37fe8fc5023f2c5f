import BitmapFont.Proofs.Stream.RoundTrip

/-!
What decides a decoding.

A reader is local if nothing but the bytes that it takes decides its answer
(`Reader.Local`): a success is the same whatever follows these bytes, a refusal is
the same whatever follows the stream, and the end of the stream is noticed at an
offset inside it. Each field reader is local and sequencing keeps that
(`Local.bind`), so the readers of records, sequences and fonts are local by
induction on their counts. For whole streams:

* `Font.decode_take_truncated`: nothing shorter than the bytes taken is accepted or
  refused for another cause than its end;
* `Font.decode_decided_by_prefix`: a stream is decided by its shortest prefix that
  suffices, and every strict prefix of an encoded font is cut off.
-/

namespace BitmapFont.FontStream

namespace Reader

variable {α β : Type}

/-- Only the bytes that a reader takes decide its answer. -/
structure Local (r : Reader α) : Prop where
  ok : ∀ start a stop, r.run start = .ok (a, stop) →
    ∃ field, start.Takes field stop ∧ ∀ rest,
      r.run { rest := field ++ rest, offset := start.offset } =
        .ok (a, { rest, offset := stop.offset })
  refused : ∀ start cause, r.run start = .error cause → (∀ offset, cause ≠ .truncated offset) →
    ∀ more, r.run { rest := start.rest ++ more, offset := start.offset } = .error cause
  truncated : ∀ start offset, r.run start = .error (.truncated offset) →
    offset ≤ start.offset + start.rest.length

/-- Two readers in a row fail if the first does, or the second from where the first
stopped. -/
theorem run_bind_eq_error_iff {first : Reader α} {next : α → Reader β} {start : Cursor}
    {cause : FormatError} :
    (first >>= next).run start = .error cause ↔
      first.run start = .error cause ∨
        ∃ a mid, first.run start = .ok (a, mid) ∧ (next a).run mid = .error cause := by
  rw [StateT.run_bind]
  cases h : first.run start with
  | error other =>
      constructor
      · rintro ⟨⟩
        exact .inl rfl
      · rintro (⟨⟨⟩⟩ | ⟨_, _, ⟨⟩, _⟩)
        rfl
  | ok answer =>
      obtain ⟨a, mid⟩ := answer
      constructor
      · intro failed
        exact .inr ⟨a, mid, rfl, failed⟩
      · rintro (⟨⟨⟩⟩ | ⟨_, _, ⟨⟩, failed⟩)
        exact failed

/-! ### Fields -/

theorem local_pure (a : α) : Local (pure a : Reader α) where
  ok := by
    intro start b stop taken
    obtain ⟨rfl, rfl⟩ := run_pure_eq_ok_iff.mp taken
    exact ⟨[], Cursor.takes_nil_iff.mpr rfl, fun rest => rfl⟩
  refused := by
    intro start cause failed
    cases failed
  truncated := by
    intro start offset failed
    cases failed

theorem local_fail {cause : FormatError} (other : ∀ offset, cause ≠ .truncated offset) :
    Local (fail cause : Reader α) where
  ok := by
    intro start a stop taken
    exact absurd taken (run_fail_ne_ok cause (a, stop))
  refused := by
    intro start cause' failed _ more
    cases failed
    rfl
  truncated := by
    intro start offset failed
    cases failed
    exact absurd rfl (other offset)

theorem local_byte : Local byte where
  ok := by
    intro start b stop taken
    rw [run_byte_eq_ok_iff] at taken
    refine ⟨[b], taken, fun rest => run_byte_eq_ok_iff.mpr ⟨rfl, ?_⟩⟩
    exact taken.2
  refused := by
    rintro ⟨rest, offset⟩ cause failed other more
    cases rest with
    | nil =>
        cases failed
        exact absurd rfl (other offset)
    | cons b rest => cases failed
  truncated := by
    rintro ⟨rest, offset⟩ at_ failed
    cases rest with
    | nil =>
        cases failed
        exact Nat.le_add_right offset 0
    | cons b rest => cases failed

theorem local_word : Local Reader.word where
  ok := by
    intro start n stop taken
    obtain ⟨fits, taken⟩ := run_word_eq_ok_iff.mp taken
    refine ⟨FontStream.word n, taken, fun rest => run_word_eq_ok_iff.mpr ⟨fits, rfl, ?_⟩⟩
    exact taken.2
  refused := by
    rintro ⟨rest, offset⟩ cause failed other more
    match rest with
    | [] =>
        cases failed
        exact absurd rfl (other offset)
    | [_] =>
        cases failed
        exact absurd rfl (other offset)
    | _ :: _ :: _ => cases failed
  truncated := by
    rintro ⟨rest, offset⟩ at_ failed
    match rest with
    | [] =>
        cases failed
        exact Nat.le_add_right offset _
    | [_] =>
        cases failed
        exact Nat.le_add_right offset _
    | _ :: _ :: _ => cases failed

/-- A field of `n` bytes can only fail because fewer are left. -/
theorem run_bytes_eq_error {n : Nat} {start : Cursor} {cause : FormatError}
    (failed : (bytes n).run start = .error cause) : cause = .truncated start.offset := by
  change bytes n start = _ at failed
  unfold bytes at failed
  split at failed
  · cases failed
    rfl
  · cases failed

theorem local_bytes (n : Nat) : Local (bytes n) where
  ok := by
    intro start field stop taken
    obtain ⟨length, taken⟩ := run_bytes_eq_ok_iff.mp taken
    refine ⟨field, taken, fun rest => run_bytes_eq_ok_iff.mpr ⟨length, rfl, ?_⟩⟩
    exact taken.2
  refused := by
    intro start cause failed other
    exact absurd (run_bytes_eq_error failed) (other start.offset)
  truncated := by
    intro start offset failed
    cases run_bytes_eq_error failed
    exact Nat.le_add_right ..

/-! ### Sequences of fields -/

/-- Local readers in a row are local: the second starts where the first stopped, and
that depends on the bytes of the first only. -/
theorem Local.bind {first : Reader α} {next : α → Reader β} (front : Local first)
    (back : ∀ a, Local (next a)) : Local (first >>= next) where
  ok := by
    intro start b stop taken
    obtain ⟨a, mid, taken₁, taken₂⟩ := run_bind_eq_ok_iff.mp taken
    obtain ⟨field₁, moved₁, same₁⟩ := front.ok _ _ _ taken₁
    obtain ⟨field₂, moved₂, same₂⟩ := (back a).ok _ _ _ taken₂
    refine ⟨field₁ ++ field₂, Cursor.takes_append_iff.mpr ⟨mid, moved₁, moved₂⟩, ?_⟩
    intro rest
    refine run_bind_eq_ok_iff.mpr ⟨a, _, ?_, same₂ rest⟩
    rw [List.append_assoc]
    exact same₁ (field₂ ++ rest)
  refused := by
    intro start cause failed other more
    rcases run_bind_eq_error_iff.mp failed with failed | ⟨a, mid, taken, failed⟩
    · exact run_bind_eq_error_iff.mpr (.inl (front.refused _ _ failed other more))
    · obtain ⟨field, moved, same⟩ := front.ok _ _ _ taken
      refine run_bind_eq_error_iff.mpr
        (.inr ⟨a, _, ?_, (back a).refused _ _ failed other more⟩)
      rw [moved.1, List.append_assoc]
      exact same (mid.rest ++ more)
  truncated := by
    intro start offset failed
    rcases run_bind_eq_error_iff.mp failed with failed | ⟨a, mid, taken, failed⟩
    · exact front.truncated _ _ failed
    · obtain ⟨field, moved, -⟩ := front.ok _ _ _ taken
      have bound := (back a).truncated _ _ failed
      rw [moved.2] at bound
      rw [moved.1, List.length_append]
      omega

theorem local_record (index : Nat) (s : Sequence) : Local (record index s) := by
  unfold record
  refine local_byte.bind fun codepoint => local_byte.bind fun width =>
    local_byte.bind fun pitch => ?_
  split
  · exact local_fail (by simp)
  · split
    · exact local_fail (by simp)
    · exact (local_bytes _).bind fun bitmap => local_pure _

theorem local_records (index count : Nat) (s : Sequence) : Local (records index count s) := by
  induction count generalizing s with
  | zero => exact local_pure s
  | succ count ih => exact (local_record index s).bind ih

theorem local_pointSize (version : Version) (height : UInt8) :
    Local (pointSize version height) := by
  cases version with
  | legacy => exact local_pure height
  | current => exact local_byte

theorem local_sequence (version : Version) (index : Nat) : Local (sequence version index) := by
  unfold sequence
  refine local_byte.bind fun height => local_byte.bind fun baseline =>
    (local_pointSize version height).bind fun pointSize => local_word.bind fun count => ?_
  split
  · exact local_fail (by simp)
  · split
    · exact local_fail (by simp)
    · exact local_records index count _

theorem local_sequences (version : Version) (index count : Nat) :
    Local (sequences version index count) := by
  induction count generalizing index with
  | zero => exact local_pure []
  | succ count ih =>
      exact (local_sequence version index).bind fun first =>
        (ih (index + 1)).bind fun rest => local_pure _

theorem local_font : Local font := by
  unfold font
  refine (local_bytes _).bind fun mark => ?_
  split
  · exact local_fail (by simp)
  refine (local_bytes _).bind fun name => local_byte.bind fun code => ?_
  split
  · exact local_fail (by simp)
  · rename_i version known
    refine local_byte.bind fun flags => local_word.bind fun count => ?_
    cases count with
    | zero => exact local_fail (by simp)
    | succ count =>
        exact (local_sequence version 0).bind fun first =>
          (local_sequences version 1 count).bind fun rest => local_pure _

end Reader

end BitmapFont.FontStream

namespace BitmapFont.Font

open FontStream

/-! ### Whole streams -/

section
variable {stream : List UInt8} {f : Font} {stop : Cursor}

theorem decode_eq_error_iff_run {cause : FormatError} :
    decode stream = .error cause ↔
      Reader.font.run { rest := stream, offset := 0 } = .error cause := by
  unfold decode
  cases Reader.font.run { rest := stream, offset := 0 } with
  | error other => simp [Except.map]
  | ok answer => simp [Except.map]

/-- The bytes taken lie inside the stream, and what follows them is free. -/
theorem run_taken (accepted : Reader.font.run { rest := stream, offset := 0 } = .ok (f, stop)) :
    stop.offset ≤ stream.length ∧ ∀ more,
      Reader.font.run { rest := stream.take stop.offset ++ more, offset := 0 } =
        .ok (f, { rest := more, offset := stop.offset }) := by
  obtain ⟨field, ⟨split, moved⟩, same⟩ := Reader.local_font.ok _ _ _ accepted
  simp only [Nat.zero_add] at split moved
  have taken : stream.take stop.offset = field := by
    rw [split, moved, List.take_left]
  refine ⟨?_, ?_⟩
  · rw [split, moved, List.length_append]
    exact Nat.le_add_right ..
  · rw [taken]
    exact same

/-- A stream that ends before the bytes taken is cut off. -/
theorem decode_take_truncated
    (accepted : Reader.font.run { rest := stream, offset := 0 } = .ok (f, stop)) {k : Nat}
    (short : k < stop.offset) :
    ∃ offset ≤ k, decode (stream.take k) = .error (.truncated offset) := by
  cases ran : Reader.font.run { rest := stream.take k, offset := 0 } with
  | ok answer =>
      -- The same bytes would decide the whole stream, which takes more of them.
      obtain ⟨g, end_⟩ := answer
      obtain ⟨inside, free⟩ := run_taken ran
      rw [List.length_take] at inside
      have whole := free (stream.drop end_.offset)
      rw [List.take_take, Nat.min_eq_left (by omega), List.take_append_drop, accepted] at whole
      cases whole
      exact absurd short (by simp only; omega)
  | error cause =>
      by_cases other : ∀ offset, cause ≠ .truncated offset
      · have whole := Reader.local_font.refused _ _ ran other (stream.drop k)
        simp only [List.take_append_drop] at whole
        rw [accepted] at whole
        cases whole
      · obtain ⟨offset, same⟩ := Classical.not_forall.mp other
        obtain rfl := Classical.not_not.mp same
        have bound := Reader.local_font.truncated _ _ ran
        refine ⟨offset, ?_, decode_eq_error_iff_run.mpr ran⟩
        simp only [Nat.zero_add, List.length_take] at bound
        omega

/-- The reader takes all bytes of an encoded font. -/
theorem run_encode (encoded : f.encode = .ok stream) :
    Reader.font.run { rest := stream, offset := 0 } =
      .ok ({ f with version := .current }, { rest := [], offset := stream.length }) := by
  have fits : f.sequences.length ≤ maxWord := by
    unfold encode encodeAs at encoded
    split at encoded
    · assumption
    · cases encoded
  rw [encode, encodeAs_eq_ok .current f fits] at encoded
  cases encoded
  refine Reader.run_font_eq_ok_iff.mpr ⟨.ofFont .current f fits, ⟨?_, ?_⟩, ?_⟩
  · rw [List.append_nil]
  · rw [Nat.zero_add]
  · rw [StreamForm.font_ofFont_current]

end

/-- A stream that decodes is decided by the bytes that are taken of it: whatever
follows them makes no difference, and anything shorter is cut off. A stream that is
refused for another cause than its end stays refused however it goes on, and one that
is cut off is so inside a field that starts in it. Encoded fonts are taken whole. -/
theorem decode_decided_by_prefix :
    (∀ stream f, decode stream = .ok f → ∃ n ≤ stream.length,
      (∀ more, decode (stream.take n ++ more) = .ok f) ∧
      ∀ k < n, ∃ offset ≤ k, decode (stream.take k) = .error (.truncated offset)) ∧
    (∀ stream cause, decode stream = .error cause → (∀ offset, cause ≠ .truncated offset) →
      ∀ more, decode (stream ++ more) = .error cause) ∧
    (∀ stream offset, decode stream = .error (.truncated offset) → offset ≤ stream.length) ∧
    ∀ (f : Font) stream, f.encode = .ok stream →
      (∀ k < stream.length, ∃ offset ≤ k,
        decode (stream.take k) = .error (.truncated offset)) ∧
      ∃ g, decode stream = .ok g ∧ ∀ more, decode (stream ++ more) = .ok g := by
  refine ⟨?_, ?_, ?_, ?_⟩
  · intro stream f decoded
    obtain ⟨stop, accepted⟩ := decode_eq_ok_iff_run.mp decoded
    obtain ⟨inside, free⟩ := run_taken accepted
    refine ⟨stop.offset, inside, ?_, ?_⟩
    · intro more
      exact decode_eq_ok_iff_run.mpr ⟨_, free more⟩
    · intro k short
      exact decode_take_truncated accepted short
  · intro stream cause failed other more
    have ran := decode_eq_error_iff_run.mp failed
    exact decode_eq_error_iff_run.mpr (Reader.local_font.refused _ _ ran other more)
  · intro stream offset failed
    have bound := Reader.local_font.truncated _ _ (decode_eq_error_iff_run.mp failed)
    rwa [Nat.zero_add] at bound
  · intro f stream encoded
    have accepted := run_encode encoded
    obtain ⟨-, free⟩ := run_taken accepted
    rw [List.take_length] at free
    refine ⟨?_, { f with version := .current }, ?_, ?_⟩
    · intro k short
      exact decode_take_truncated accepted short
    · exact decode_eq_ok_iff_run.mpr ⟨_, accepted⟩
    · intro more
      exact decode_eq_ok_iff_run.mpr ⟨_, free more⟩

/-- A form is cut off anywhere inside, a wrong mark stays wrong, and the first field of
an empty stream is missing. -/
theorem decode_decided_by_prefix_instances :
    (∃ n ≤ twiceRecordedForm.bytes.length,
      ∀ k < n, ∃ offset ≤ k,
        decode (twiceRecordedForm.bytes.take k) = .error (.truncated offset)) ∧
    (decode [1, 2, 3, 4] = .error .badMagic ∧
      ∀ more, decode ([1, 2, 3, 4] ++ more) = .error .badMagic) ∧
    (decode [0x42] = .error (.truncated 0) ∧ 0 ≤ [0x42].length) ∧
    ∃ stream, untitled.encode = .ok stream ∧
      ∀ k < stream.length, ∃ offset ≤ k,
        decode (stream.take k) = .error (.truncated offset) := by
  obtain ⟨accepts, refuses, cuts, encodes⟩ := decode_decided_by_prefix
  refine ⟨?_, ?_, ?_, ?_⟩
  · obtain ⟨n, inside, -, short⟩ := accepts _ _ (decode_bytes twiceRecordedForm)
    exact ⟨n, inside, short⟩
  · have refused : decode [1, 2, 3, 4] = .error .badMagic := rfl
    exact ⟨refused, refuses _ _ refused nofun⟩
  · have cut : decode [0x42] = .error (.truncated 0) := rfl
    exact ⟨cut, cuts _ _ cut⟩
  · have encoded := encodeAs_eq_ok .current untitled (by decide)
    exact ⟨_, encoded, (encodes _ _ encoded).1⟩

end BitmapFont.Font
