import BitmapFont.FontStream.Encode
import BitmapFont.FontStream.Reader

/-!
What each field reader accepts.

`start.Takes field stop` says that a cursor moves over the bytes `field`. Main
facts: every primitive reader succeeds exactly if its field stands at the cursor
(`run_byte_eq_ok_iff`, `run_word_eq_ok_iff`, `run_bytes_eq_ok_iff`), and two
readers in a row take their fields one after the other (`run_bind_eq_ok_iff`,
`Cursor.takes_append_iff`). A reader of a whole record is described by composing
these equivalences.
-/

namespace BitmapFont.FontStream

namespace Cursor

/-- `stop` is `start` after the bytes `field`. -/
def Takes (start : Cursor) (field : List UInt8) (stop : Cursor) : Prop :=
  start.rest = field ++ stop.rest ∧ stop.offset = start.offset + field.length

@[simp] theorem takes_nil_iff {start stop : Cursor} : start.Takes [] stop ↔ stop = start := by
  constructor
  · rintro ⟨rest, offset⟩
    cases start
    cases stop
    simp_all
  · rintro rfl
    exact ⟨rfl, rfl⟩

/-- A cursor moves over two fields by stopping between them. -/
theorem takes_append_iff {start stop : Cursor} {front back : List UInt8} :
    start.Takes (front ++ back) stop ↔ ∃ mid, start.Takes front mid ∧ mid.Takes back stop := by
  constructor
  · rintro ⟨rest, offset⟩
    refine ⟨⟨back ++ stop.rest, start.offset + front.length⟩, ⟨?_, rfl⟩, rfl, ?_⟩
    · rw [rest, List.append_assoc]
    · rw [offset, List.length_append, Nat.add_assoc]
  · rintro ⟨mid, ⟨rest, offset⟩, rest', offset'⟩
    refine ⟨?_, ?_⟩
    · rw [rest, rest', List.append_assoc]
    · rw [offset', offset, List.length_append, Nat.add_assoc]

theorem takes_cons_iff {start stop : Cursor} {b : UInt8} {field : List UInt8} :
    start.Takes (b :: field) stop ↔ ∃ mid, start.Takes [b] mid ∧ mid.Takes field stop :=
  @takes_append_iff _ _ [b] _

/-- The field that is taken between two cursors is a prefix of what was left. -/
theorem exists_takes_iff {bytes field : List UInt8} {offset : Nat} :
    (∃ stop, Takes { rest := bytes, offset } field stop) ↔ field <+: bytes := by
  constructor
  · rintro ⟨stop, rest, _⟩
    exact ⟨stop.rest, rest.symm⟩
  · rintro ⟨rest, rfl⟩
    exact ⟨⟨rest, offset + field.length⟩, rfl, rfl⟩

end Cursor

/-! ### Two-byte numbers -/

theorem word_toNat_add (low high : UInt8) : word (low.toNat + 256 * high.toNat) = [low, high] := by
  have := low.toNat_lt
  have lowPart : (low.toNat + 256 * high.toNat) % 256 = low.toNat := by omega
  have highPart : (low.toNat + 256 * high.toNat) / 256 = high.toNat := by omega
  simp [word, lowPart, highPart]

theorem toNat_add_of_word {n : Nat} (fits : n ≤ maxWord) {low high : UInt8}
    (same : word n = [low, high]) : low.toNat + 256 * high.toNat = n := by
  unfold maxWord at fits
  simp only [word, List.cons.injEq, and_true] at same
  obtain ⟨rfl, rfl⟩ := same
  simp only [UInt8.toNat_ofNat']
  omega

namespace Reader

variable {α β : Type} {start stop : Cursor}

/-- Two readers in a row succeed if the second does from where the first stopped. -/
theorem run_bind_eq_ok_iff {first : Reader α} {next : α → Reader β} {b : β} :
    (first >>= next).run start = .ok (b, stop) ↔
      ∃ a mid, first.run start = .ok (a, mid) ∧ (next a).run mid = .ok (b, stop) := by
  rw [StateT.run_bind]
  cases h : first.run start with
  | error cause => simp [bind, Except.bind]
  | ok answer =>
      obtain ⟨a, mid⟩ := answer
      constructor
      · intro taken
        exact ⟨a, mid, rfl, taken⟩
      · rintro ⟨_, _, ⟨⟩, taken⟩
        exact taken

theorem run_pure_eq_ok_iff {a b : α} :
    (pure a : Reader α).run start = .ok (b, stop) ↔ b = a ∧ stop = start := by
  rw [StateT.run_pure]
  constructor
  · rintro ⟨⟩
    exact ⟨rfl, rfl⟩
  · rintro ⟨rfl, rfl⟩
    rfl

theorem run_fail_ne_ok (cause : FormatError) (answer : α × Cursor) :
    (fail cause : Reader α).run start ≠ .ok answer := by
  rintro ⟨⟩

/-- A byte is read exactly if one is left. -/
theorem run_byte_eq_ok_iff {b : UInt8} : byte.run start = .ok (b, stop) ↔ start.Takes [b] stop := by
  obtain ⟨rest, offset⟩ := start
  obtain ⟨rest', offset'⟩ := stop
  change byte ⟨rest, offset⟩ = _ ↔ _
  cases rest with
  | nil => simp [byte, Cursor.Takes]
  | cons first rest =>
      simp only [byte, Cursor.Takes, Except.ok.injEq, Prod.mk.injEq, Cursor.mk.injEq,
        List.singleton_append, List.cons.injEq, List.length_singleton, and_assoc]
      exact and_congr_right fun _ => and_congr_right fun _ => eq_comm

/-- A two-byte number is read exactly if its low and its high byte are left. -/
theorem run_word_eq_ok_iff {n : Nat} :
    Reader.word.run start = .ok (n, stop) ↔ n ≤ maxWord ∧ start.Takes (FontStream.word n) stop := by
  obtain ⟨rest, offset⟩ := start
  obtain ⟨rest', offset'⟩ := stop
  change Reader.word ⟨rest, offset⟩ = _ ↔ _
  match rest with
  | [] => simp [Reader.word, Cursor.Takes, FontStream.word]
  | [_] => simp [Reader.word, Cursor.Takes, FontStream.word]
  | low :: high :: rest =>
      simp only [Reader.word, Except.ok.injEq, Prod.mk.injEq, Cursor.mk.injEq]
      constructor
      · rintro ⟨rfl, rfl, rfl⟩
        have := low.toNat_lt
        have := high.toNat_lt
        refine ⟨?_, ?_, ?_⟩
        · unfold maxWord
          omega
        · simp [word_toNat_add]
        · simp [word_toNat_add]
      · rintro ⟨fits, taken, moved⟩
        have bytes : FontStream.word n = [low, high] := by
          simp only [FontStream.word, List.cons_append, List.nil_append, List.cons.injEq] at taken
          simp [FontStream.word, taken.1, taken.2.1]
        rw [bytes] at taken moved
        simp only [List.cons_append, List.nil_append, List.cons.injEq, true_and] at taken
        exact ⟨toNat_add_of_word fits bytes, taken, moved.symm⟩

/-- A field of `n` bytes is read exactly if `n` bytes are left. -/
theorem run_bytes_eq_ok_iff {n : Nat} {field : List UInt8} :
    (bytes n).run start = .ok (field, stop) ↔ field.length = n ∧ start.Takes field stop := by
  obtain ⟨rest, offset⟩ := start
  obtain ⟨rest', offset'⟩ := stop
  change bytes n ⟨rest, offset⟩ = _ ↔ _
  simp only [bytes, splitAt?_eq, Cursor.Takes]
  by_cases enough : n ≤ rest.length
  · simp only [enough, if_true, Except.ok.injEq, Prod.mk.injEq, Cursor.mk.injEq]
    constructor
    · rintro ⟨rfl, rfl, rfl⟩
      simp [enough]
    · rintro ⟨rfl, rfl, rfl⟩
      simp
  · simp only [enough, if_false, reduceCtorEq, false_iff, not_and]
    rintro rfl taken
    simp [taken] at enough

end Reader

end BitmapFont.FontStream
