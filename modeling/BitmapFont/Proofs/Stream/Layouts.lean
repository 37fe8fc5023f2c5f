import BitmapFont.Proofs.Stream.RoundTrip
import Mathlib.Algebra.GroupWithZero.Nat

/-!
The two layouts of a stream.

Writing in place appends the bytes that `Font.encodeAs` gives as a whole
(`Font.on_writeTo_of_fits`), and how many these are follows from the sizes of the
glyphs. Both layouts list the same fields but one: `insertPointSizes` puts the point sizes into a
legacy stream, at offsets that are counted in that stream. Main facts:

* `insertPointSizes_blocks`: with the point sizes inserted, the sequences of a legacy
  stream are those of a current one;
* `Font.decode_encodeLegacy`: a legacy stream is read as the font whose point sizes are
  the heights of its sequences;
* `Font.layouts_differ_by_point_sizes`: what is written in either layout, and where the
  two differ.
-/

namespace BitmapFont

/-- The bytes 0 and 1 stand for a layout. -/
theorem Version.exists_code {code : UInt8} (known : code.toNat ≤ 1) :
    ∃ version : Version, code = version.code := by
  have some := mt ofCode?_eq_none_iff.mp (Nat.not_lt.mpr known)
  obtain ⟨version, known⟩ := Option.ne_none_iff_exists'.mp some
  exact ⟨version, eq_code_of_ofCode? known⟩

namespace FontStream

/-! ### Writing in place -/

theorem on_put (field : List UInt8) (out : Array UInt8) :
    (put field).on out = (.ok (), out ++ field) := rfl

/-- Fields appended one after the other are appended as one. -/
theorem append_append_field (out : Array UInt8) (front back : List UInt8) :
    out ++ front ++ back = out ++ (front ++ back) := by
  apply Array.toList_inj.mp
  simp only [Array.toList_appendList, List.append_assoc]

/-- A loop over writers appends what each of them appends. -/
theorem on_forM {α : Type} {writer : α → Change (Array UInt8) Unit} {field : α → List UInt8}
    (appends : ∀ a out, (writer a).on out = (.ok (), out ++ field a)) (list : List α)
    (out : Array UInt8) : (forM list writer).on out = (.ok (), out ++ list.flatMap field) := by
  induction list generalizing out with
  | nil =>
      rw [List.forM_nil, Change.on_pure, List.flatMap_nil, Array.appendList_nil]
  | cons a rest ih =>
      rw [List.forM_cons, Change.on_bind, appends]
      simp only [ih, List.flatMap_cons, append_append_field]

theorem on_putSequence (version : Version) (s : Sequence) (out : Array UInt8) :
    (putSequence version s).on out = (.ok (), out ++ sequenceBlock version s) := by
  have records := on_forM (fun g out => on_put (glyphRecord g) out) s.glyphs.toList
  unfold putSequence sequenceBlock
  simp only [Change.on_bind, on_put, records, append_append_field, List.cons_append,
    List.nil_append, List.append_assoc]

/-! ### Lengths -/

/-- The bytes of a glyph record: three fields and the rows. -/
def recordLength (g : Glyph) : Nat :=
  3 + (g.width.toNat + 7) / 8 * g.height.toNat

/-- The bytes of the fields that stand before the glyph records of a sequence. -/
def metricsLength : Version → Nat
  | .legacy => 4
  | .current => 5

/-- The bytes of a sequence. -/
def blockLength (version : Version) (s : Sequence) : Nat :=
  metricsLength version + (s.glyphs.toList.map recordLength).sum

theorem length_glyphRecord (g : Glyph) : (glyphRecord g).length = recordLength g := by
  have rows : g.data.toList.length = (g.width.toNat + 7) / 8 * g.height.toNat := by
    rw [Array.length_toList, g.size_data, pitchForWidth]
  unfold glyphRecord recordLength
  simp only [List.length_cons, rows, Nat.add_comm 3]

theorem length_sequenceBlock (version : Version) (s : Sequence) :
    (sequenceBlock version s).length = blockLength version s := by
  have records : (s.glyphs.toList.flatMap glyphRecord).length =
      (s.glyphs.toList.map recordLength).sum := by
    rw [List.length_flatMap]
    exact congrArg List.sum (List.map_congr_left fun g _ => length_glyphRecord g)
  unfold sequenceBlock blockLength
  rw [List.length_append, records]
  cases version with
  | legacy => rfl
  | current => rfl

/-- A point size takes one byte. -/
theorem sum_blockLength_current (sequences : List Sequence) :
    (sequences.map (blockLength .current)).sum =
      (sequences.map (blockLength .legacy)).sum + sequences.length := by
  induction sequences with
  | nil => rfl
  | cons s rest ih =>
      have first : blockLength .current s = blockLength .legacy s + 1 := by
        simp only [blockLength, metricsLength]
        omega
      simp only [List.map_cons, List.sum_cons, List.length_cons, ih, first]
      omega

/-- A header is the magic bytes and the name, which fill 32 bytes, and the rest. -/
theorem header_eq (version : Version) (f : Font) :
    header version f =
      (magic ++ f.name.field) ++ version.code :: f.flags :: word f.sequences.length := by
  unfold header
  simp only [List.append_assoc, List.cons_append, List.nil_append]

theorem length_magic_field (f : Font) : (magic ++ f.name.field).length = 32 := by
  rw [List.length_append, f.name.length_field]
  rfl

theorem length_header (version : Version) (f : Font) : (header version f).length = 36 := by
  rw [header_eq, List.length_append, length_magic_field]
  rfl

/-- The bytes of a font. -/
theorem length_stream (version : Version) (f : Font) :
    (header version f ++ f.sequences.flatMap (sequenceBlock version)).length =
      36 + (f.sequences.map (blockLength version)).sum := by
  rw [List.length_append, length_header, List.length_flatMap]
  simp only [length_sequenceBlock]

/-! ### The field that the legacy layout lacks -/

/-- A legacy stream, the first of the given sequences of which starts at `offset`, with
the point size of each of them inserted behind its height and baseline. Later ones are
inserted first, so that `offset` counts the bytes of the legacy stream. -/
def insertPointSizes : (offset : Nat) → List Sequence → (stream : List UInt8) → List UInt8
  | _, [], stream => stream
  | offset, s :: rest, stream =>
    (insertPointSizes (offset + blockLength .legacy s) rest stream).insertIdx (offset + 2)
      s.pointSize

theorem insertIdx_append_length (front back : List UInt8) (b : UInt8) :
    (front ++ back).insertIdx front.length b = front ++ b :: back := by
  induction front with
  | nil => rfl
  | cons a front ih => exact congrArg (a :: ·) ih

/-- With its point size inserted, a legacy sequence is a current one. -/
theorem insertIdx_sequenceBlock (s : Sequence) (front back : List UInt8) :
    (front ++ sequenceBlock .legacy s ++ back).insertIdx (front.length + 2) s.pointSize =
      front ++ sequenceBlock .current s ++ back := by
  have metrics : (front ++ [s.height, s.baseline]).length = front.length + 2 := by
    rw [List.length_append]
    rfl
  have split := insertIdx_append_length (front ++ [s.height, s.baseline])
    (word glyphCount ++ s.glyphs.toList.flatMap glyphRecord ++ back) s.pointSize
  rw [metrics] at split
  simpa only [sequenceBlock, pointSizeField, List.append_assoc, List.cons_append,
    List.nil_append] using split

/-- The sequences behind any front become current ones. The front grows with each
sequence that is passed, by its legacy bytes. -/
theorem insertPointSizes_blocks (sequences : List Sequence) (front : List UInt8) :
    insertPointSizes front.length sequences
        (front ++ sequences.flatMap (sequenceBlock .legacy)) =
      front ++ sequences.flatMap (sequenceBlock .current) := by
  induction sequences generalizing front with
  | nil => rfl
  | cons s rest ih =>
      have passed : front.length + blockLength .legacy s =
          (front ++ sequenceBlock .legacy s).length := by
        rw [List.length_append, length_sequenceBlock]
      rw [insertPointSizes, passed, List.flatMap_cons, ← List.append_assoc, ih,
        insertIdx_sequenceBlock, List.flatMap_cons, List.append_assoc]

/-- The offset of a sequence in a legacy stream. -/
def legacyOffset (f : Font) (index : Nat) : Nat :=
  36 + ((f.sequences.take index).map (blockLength .legacy)).sum

/-- The second byte of a sequence is its baseline. -/
theorem getElem?_baseline (version : Version) {sequences : List Sequence} {index : Nat}
    {s : Sequence} (front : List UInt8) (found : sequences[index]? = some s) :
    (front ++ sequences.flatMap (sequenceBlock version))[front.length +
      ((sequences.take index).map (blockLength version)).sum + 1]? = some s.baseline := by
  induction sequences generalizing front index with
  | nil => cases found
  | cons first rest ih =>
      cases index with
      | zero =>
          cases found
          simp [sequenceBlock]
      | succ index =>
          have later := ih (front ++ sequenceBlock version first) found
          rw [List.length_append, length_sequenceBlock] at later
          simp only [List.flatMap_cons, List.take_succ_cons, List.map_cons, List.sum_cons]
          rw [← List.append_assoc, ← Nat.add_assoc]
          exact later

end FontStream

namespace Font

open FontStream

/-! ### Whole streams -/

theorem encodeAs_eq_stream (version : Version) {f : Font} (fits : f.sequences.length ≤ maxWord) :
    f.encodeAs version =
      .ok (header version f ++ f.sequences.flatMap (sequenceBlock version)) :=
  if_pos fits

section
variable {f : Font} {code : UInt8}

/-- A font that the header can count is written in every layout. -/
theorem on_writeTo_of_fits (version : Version) (fits : f.sequences.length ≤ maxWord)
    (out : Array UInt8) :
    (f.writeTo version.code).on out =
      (.ok (), out ++ (header version f ++ f.sequences.flatMap (sequenceBlock version))) := by
  unfold writeTo
  rw [Version.ofCode?_code]
  simp only [if_pos fits, Change.on_bind, on_put, on_forM (on_putSequence version),
    append_append_field]

theorem on_writeTo_of_beyond (version : Version) (beyond : maxWord < f.sequences.length)
    (out : Array UInt8) :
    (f.writeTo version.code).on out =
      (.error (.argument (.tooManySequences f.sequences.length)), out) := by
  unfold writeTo
  rw [Version.ofCode?_code]
  simp only [if_neg (Nat.not_le.mpr beyond), Change.on_throw]

theorem on_writeTo_of_unknown (unknown : Version.ofCode? code = none) (out : Array UInt8) :
    (f.writeTo code).on out = (.error (.format (.unsupportedVersion code.toNat)), out) := by
  unfold writeTo
  rw [unknown]
  rfl

/-- A refused font leaves nothing behind, and nothing else is a reason to refuse it. -/
theorem refuses_writeTo_iff {out : Array UInt8} :
    (∃ cause, (f.writeTo code).on out = (.error cause, out)) ↔
      1 < code.toNat ∨ maxWord < f.sequences.length := by
  rw [← Version.ofCode?_eq_none_iff]
  cases known : Version.ofCode? code with
  | none => exact ⟨fun _ => .inl rfl, fun _ => ⟨_, on_writeTo_of_unknown known out⟩⟩
  | some version =>
      obtain rfl := Version.eq_code_of_ofCode? known
      rcases Nat.lt_or_ge maxWord f.sequences.length with beyond | fits
      · exact ⟨fun _ => .inr beyond, fun _ => ⟨_, on_writeTo_of_beyond version beyond out⟩⟩
      · rw [on_writeTo_of_fits version fits]
        constructor
        · rintro ⟨cause, ⟨⟩⟩
        · rintro (⟨⟨⟩⟩ | beyond)
          exact absurd fits (Nat.not_le.mpr beyond)

/-- What is written to an empty byte vector is what `encode` and `encodeLegacy` give. -/
theorem write_code (f : Font) (version : Version) : f.write version.code = f.encodeAs version := by
  unfold write
  rcases Nat.lt_or_ge maxWord f.sequences.length with beyond | fits
  · rw [on_writeTo_of_beyond version beyond, encodeAs, if_neg (Nat.not_le.mpr beyond)]
    rfl
  · rw [on_writeTo_of_fits version fits, encodeAs_eq_stream version fits]
    simp [Except.map]

end

/-- The stream in the current layout, made from the one in the legacy layout. -/
theorem insertPointSizes_stream (f : Font) :
    insertPointSizes 36 f.sequences
        ((header .legacy f ++ f.sequences.flatMap (sequenceBlock .legacy)).set 32 1) =
      header .current f ++ f.sequences.flatMap (sequenceBlock .current) := by
  have marked : (header .legacy f ++ f.sequences.flatMap (sequenceBlock .legacy)).set 32 1 =
      header .current f ++ f.sequences.flatMap (sequenceBlock .legacy) := by
    rw [header_eq, header_eq, List.append_assoc (magic ++ f.name.field), ← length_magic_field f,
      List.set_append_right _ _ (Nat.le_refl _), Nat.sub_self,
      List.append_assoc (magic ++ f.name.field)]
    rfl
  rw [marked, ← length_header .current f, insertPointSizes_blocks]

theorem getElem?_version (version : Version) (f : Font) (blocks : List UInt8) :
    (header version f ++ blocks)[32]? = some version.code := by
  rw [header_eq, List.append_assoc, ← length_magic_field f,
    List.getElem?_append_right (Nat.le_refl _), Nat.sub_self]
  rfl

/-- What a legacy stream keeps of a font. -/
def asLegacy (f : Font) : Font :=
  { f with
    version := .legacy
    sequences := f.sequences.map fun s => s.setPointSize s.height
    nonempty := by simpa using f.nonempty }

/-- A legacy stream is read as the font whose point sizes are its heights. -/
theorem decode_encodeLegacy {f : Font} (fits : f.sequences.length ≤ maxWord) :
    ∃ legacy, f.encodeLegacy = .ok legacy ∧ decode legacy = .ok f.asLegacy := by
  refine ⟨_, encodeAs_eq_ok .legacy f fits, ?_⟩
  rw [decode_bytes, StreamForm.font_ofFont]
  rfl

/-- The legacy layout does not show what it lacks. -/
theorem encodeLegacy_asLegacy (f : Font) : f.asLegacy.encodeLegacy = f.encodeLegacy := by
  have count : f.asLegacy.sequences.length = f.sequences.length := List.length_map _
  have blocks : f.asLegacy.sequences.flatMap (sequenceBlock .legacy) =
      f.sequences.flatMap (sequenceBlock .legacy) := List.flatMap_map ..
  unfold encodeLegacy encodeAs header
  rw [count, blocks]
  rfl

/-- A font is written unless the version byte is unknown or the header cannot count its
sequences, in which case nothing is; otherwise the bytes appended are those of the
header, the metrics and the glyph records. The current layout is the legacy one with
another version byte and a point size behind each baseline, and the legacy layout is
read as the font with its heights as point sizes, which is written the same. -/
theorem layouts_differ_by_point_sizes :
    (∀ (f : Font) (code : UInt8) (out : Array UInt8),
      ((∃ cause, (f.writeTo code).on out = (.error cause, out)) ↔
        1 < code.toNat ∨ 65535 < f.sequences.length) ∧
      (code.toNat ≤ 1 → f.sequences.length ≤ 65535 → ∃ stream : List UInt8,
        (f.writeTo code).on out = (.ok (), out ++ stream) ∧
        stream.length = 36 + (f.sequences.map fun s =>
          (if code = 1 then 5 else 4) + (s.glyphs.toList.map recordLength).sum).sum)) ∧
    (∀ f : Font, f.sequences.length ≤ 65535 → ∃ legacy stream,
      f.encodeLegacy = .ok legacy ∧ f.encode = .ok stream ∧
      legacy[32]? = some 0 ∧
      (∀ i s, f.sequences[i]? = some s → legacy[legacyOffset f i + 1]? = some s.baseline) ∧
      stream = insertPointSizes 36 f.sequences (legacy.set 32 1) ∧
      stream.length = legacy.length + f.sequences.length) ∧
    ∀ f : Font, f.sequences.length ≤ 65535 → ∃ legacy g,
      f.encodeLegacy = .ok legacy ∧ decode legacy = .ok g ∧
      g.name = f.name ∧ g.version = .legacy ∧ g.flags = f.flags ∧
      g.sequences = f.sequences.map (fun s => { s with pointSize := s.height }) ∧
      g.encodeLegacy = .ok legacy := by
  refine ⟨?_, ?_, ?_⟩
  · intro f code out
    refine ⟨refuses_writeTo_iff, fun known fits => ?_⟩
    obtain ⟨version, rfl⟩ := Version.exists_code known
    refine ⟨_, on_writeTo_of_fits version fits out, ?_⟩
    rw [length_stream]
    cases version with
    | legacy => rfl
    | current => rfl
  · intro f fits
    refine ⟨_, _, encodeAs_eq_stream .legacy fits, encodeAs_eq_stream .current fits,
      getElem?_version .legacy f _, ?_, (insertPointSizes_stream f).symm, ?_⟩
    · intro i s found
      have second := getElem?_baseline .legacy (header .legacy f) found
      rwa [length_header] at second
    · rw [length_stream, length_stream, sum_blockLength_current, Nat.add_assoc]
  · intro f fits
    obtain ⟨legacy, encoded, decoded⟩ := decode_encodeLegacy fits
    refine ⟨legacy, f.asLegacy, encoded, decoded, rfl, rfl, rfl, rfl, ?_⟩
    rw [encodeLegacy_asLegacy, encoded]

/-- A font of two empty sequences. -/
def untitledTwice : Font :=
  untitled.push initialSequence

/-- Two sequences of 16 rows, with glyphs at most eight pixels wide, take 36 bytes and
twice 5 and 256 times 19. -/
theorem layouts_differ_by_point_sizes_untitled :
    (∃ cause, (untitledTwice.writeTo 2).on #[7] = (.error cause, #[7])) ∧
    ((1 : UInt8).toNat ≤ 1 ∧ untitledTwice.sequences.length ≤ 65535 ∧
      ∃ stream : List UInt8,
        (untitledTwice.writeTo 1).on #[7] = (.ok (), (#[7] : Array UInt8) ++ stream) ∧
        stream.length = 9774) ∧
    (∃ legacy stream,
      untitledTwice.encodeLegacy = .ok legacy ∧ untitledTwice.encode = .ok stream ∧
      stream = insertPointSizes 36 untitledTwice.sequences (legacy.set 32 1) ∧
      stream.length = legacy.length + 2) ∧
    ∃ legacy g, untitledTwice.encodeLegacy = .ok legacy ∧ decode legacy = .ok g ∧
      g.encodeLegacy = .ok legacy := by
  have two : untitledTwice.sequences.length ≤ 65535 := by decide
  obtain ⟨written, inserted, read⟩ := layouts_differ_by_point_sizes
  refine ⟨?_, ⟨by decide, two, ?_⟩, ?_, ?_⟩
  · exact (written untitledTwice 2 #[7]).1.mpr (.inl (by decide))
  · obtain ⟨stream, appended, length⟩ := (written untitledTwice 1 #[7]).2 (by decide) two
    exact ⟨stream, appended, length.trans (by decide +kernel)⟩
  · obtain ⟨legacy, stream, old, new, -, -, same, longer⟩ := inserted untitledTwice two
    exact ⟨legacy, stream, old, new, same, longer⟩
  · obtain ⟨legacy, g, old, decoded, -, -, -, -, again⟩ := read untitledTwice two
    exact ⟨legacy, g, old, decoded, again⟩

end Font

end BitmapFont
