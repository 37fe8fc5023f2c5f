import BitmapFont.Proofs.Font.Commands
import BitmapFont.Proofs.Stream.Layouts

/-!
Names of fonts.

A font gets its name from a constructor, from a request to rename it, or from a stream,
and each of them drops characters in a way of its own: constructors cut, renaming
refuses, the writer copies bytes into a field, and the reader stops at a NUL. For the
names that fonts have they agree. Main facts:

* `FontName.chars_cut`, `FontName.ofText_of_le`, `FontName.ofText_of_gt`: what is stored
  of a text;
* `FontName.asciiPart_text`: a stored name loses nothing when it is stored again;
* `Font.extract_encode`: a stream holds the name, filled up with NULs;
* `Font.names_agree`: all of this for every text and every font.
-/

namespace BitmapFont

/-- The ASCII characters of a text other than NUL. -/
def asciiPart (text : String) : List Char :=
  text.toList.filter fun c => c.toNat < 128 ∧ c ≠ '\x00'

namespace FontName

/-! ### Stored texts -/

theorem storable_iff {c : Char} : Storable c ↔ c.toNat < 128 ∧ c ≠ '\x00' := by
  have nul : c = '\x00' ↔ c.toNat = 0 := (Char.toNat_inj (d := '\x00')).symm
  rw [Storable, Ne, nul, and_comm, Nat.pos_iff_ne_zero]

theorem storablePart_toList (text : String) : storablePart text.toList = asciiPart text :=
  List.filter_congr fun _ _ => decide_eq_decide.mpr storable_iff

theorem chars_cut (text : String) : (cut text).chars = (asciiPart text).take 28 := by
  rw [← storablePart_toList]
  rfl

theorem ofText_of_le {text : String} (fits : (asciiPart text).length ≤ 28) :
    ofText text = .ok (cut text) := by
  rw [← storablePart_toList] at fits
  have stored : ofText text = .ok _ := dif_pos fits
  rw [stored, cut_eq_of_ofText stored]

theorem ofText_of_gt {text : String} (long : 28 < (asciiPart text).length) :
    ofText text = .error (.argument (.nameTooLong (String.ofList (asciiPart text)) 28)) := by
  rw [← storablePart_toList] at long ⊢
  exact dif_neg (Nat.not_le.mpr long)

/-- Nothing of a name is dropped when it is stored again. -/
theorem asciiPart_text (name : FontName) : asciiPart name.text = name.chars := by
  rw [← storablePart_toList, text, String.toList_ofList, storablePart_of_storable name.storable]

theorem cut_text (name : FontName) : cut name.text = name := by
  rw [cut, text, String.toList_ofList, ofChars_chars]

end FontName

namespace Font

/-- Every constructor stores a text as the same characters. -/
structure StoredAs (text : String) (chars : List Char) : Prop where
  new : (Font.new text).name.chars = chars
  withSequence : ∀ q, (Font.withSequence text q).name.chars = chars
  ofSequences : ∀ sequences, sequences ≠ [] →
    ∃ f, Font.ofSequences text sequences = .ok f ∧ f.name.chars = chars

theorem storedAs_cut (text : String) : StoredAs text (FontName.cut text).chars where
  new := rfl
  withSequence := fun _ => rfl
  ofSequences := fun _ nonempty => ⟨_, dif_neg nonempty, rfl⟩

theorem on_setName (text : String) (f : Font) :
    (FontCommand.setName text).run.on f =
      match FontName.ofText text with
      | .error cause => (.error cause, f)
      | .ok name => (.ok .done, { f with name }) := by
  rw [FontCommand.on_run]
  simp only [FontCommand.result, setName]
  cases FontName.ofText text with
  | error cause => rfl
  | ok name => rfl

/-! ### Stored streams -/

/-- After the magic bytes a stream holds the name, filled up with NULs. -/
theorem extract_encode {f : Font} {stream : List UInt8} (encoded : f.encode = .ok stream) :
    stream.extract 4 32 =
      (f.name.chars.map fun c => UInt8.ofNat c.toNat) ++
        List.replicate (28 - f.name.chars.length) 0 := by
  have field : f.name.field = (f.name.chars.map fun c => UInt8.ofNat c.toNat) ++
      List.replicate (28 - f.name.chars.length) 0 := by
    rw [FontName.field_eq, FontName.bytes_eq]
    rfl
  unfold encode encodeAs at encoded
  split at encoded
  · cases encoded
    rw [← field, List.extract_eq_take_drop, FontStream.header, List.append_assoc,
      List.append_assoc, List.append_assoc]
    exact List.take_left' f.name.length_field
  · cases encoded

/-- The constructors store the first 28 characters of the ASCII part of a text. Renaming a
font stores the same, but is refused and changes nothing if the ASCII part is longer. A
name that a font has is stored as it is by both. It stands in the header of the encoded
font, filled up with NULs, and decoding gives it back. -/
theorem names_agree :
    (∀ text : String, StoredAs text ((asciiPart text).take 28) ∧
      ∀ f : Font,
        ((asciiPart text).length ≤ 28 →
          (FontCommand.setName text).run.on f = (.ok .done, { f with name := (new text).name })) ∧
        (28 < (asciiPart text).length →
          (FontCommand.setName text).run.on f =
            (.error (.argument (.nameTooLong (String.ofList (asciiPart text)) 28)), f))) ∧
    (∀ f : Font, StoredAs f.name.text f.name.chars ∧
      ∀ g : Font, (FontCommand.setName f.name.text).run.on g =
        (.ok .done, { g with name := f.name })) ∧
    ∀ f : Font, f.sequences.length ≤ 65535 → ∃ stream, f.encode = .ok stream ∧
      stream.extract 4 32 =
        (f.name.chars.map fun c => UInt8.ofNat c.toNat) ++
          List.replicate (28 - f.name.chars.length) 0 ∧
      ∃ g, decode stream = .ok g ∧ g.name = f.name := by
  refine ⟨?_, ?_, ?_⟩
  · intro text
    rw [← FontName.chars_cut]
    refine ⟨storedAs_cut text, fun f => ⟨fun fits => ?_, fun long => ?_⟩⟩
    · rw [on_setName, FontName.ofText_of_le fits]
      rfl
    · rw [on_setName, FontName.ofText_of_gt long]
  · intro f
    have stored := storedAs_cut f.name.text
    have fits : (asciiPart f.name.text).length ≤ 28 := by
      rw [FontName.asciiPart_text]
      exact f.name.length_le
    rw [FontName.cut_text] at stored
    refine ⟨stored, fun g => ?_⟩
    rw [on_setName, FontName.ofText_of_le fits, FontName.cut_text]
  · intro f fits
    have encoded := encodeAs_eq_stream .current fits
    exact ⟨_, encoded, extract_encode encoded, _, decode_of_encode encoded, rfl⟩

/-- A name of 28 characters with umlauts and a NUL between them, which are dropped. -/
def longestName : String :=
  "ÄABCDEFGHIJKLMN\x00OPQRSTUVWXYZ01ß"

theorem names_agree_longest :
    [initialSequence] ≠ [] ∧ (asciiPart longestName).length ≤ 28 ∧
      (FontCommand.setName longestName).run.on untitled =
        (.ok .done, { untitled with name := (new longestName).name }) ∧
      28 < (asciiPart (longestName ++ "2")).length ∧
      (∃ cause, (FontCommand.setName (longestName ++ "2")).run.on untitled =
        (.error cause, untitled)) ∧
      (new longestName).sequences.length ≤ 65535 ∧
      ∃ stream, (new longestName).encode = .ok stream ∧
        stream.extract 4 32 =
          "ABCDEFGHIJKLMNOPQRSTUVWXYZ01".toList.map (fun c => UInt8.ofNat c.toNat) ∧
        ∃ g, decode stream = .ok g ∧ g.name = (new (longestName ++ "2")).name := by
  have fits : (asciiPart longestName).length ≤ 28 := by decide
  have long : 28 < (asciiPart (longestName ++ "2")).length := by decide
  obtain ⟨stored, renamed⟩ := names_agree.1 longestName
  obtain ⟨stored', renamed'⟩ := names_agree.1 (longestName ++ "2")
  have one : (new longestName).sequences.length ≤ 65535 := by decide
  obtain ⟨stream, encoded, field, g, decoded, name⟩ := names_agree.2.2 (new longestName) one
  refine ⟨by simp, fits, (renamed untitled).1 fits, long, ⟨_, (renamed' untitled).2 long⟩, one,
    stream, encoded, ?_, g, decoded, ?_⟩
  · rw [field, stored.new]
    decide
  · refine name.trans (FontName.ext_chars ?_)
    rw [stored.new, stored'.new]
    decide

end Font

end BitmapFont
