import BitmapFont.FontStream.Encode
import BitmapFont.FontStream.Reader

/-!
Reading fonts from byte streams.

Every field is checked as it is read, so of two faults the one that stands first
is reported. Later glyph records of a codepoint replace earlier ones, codepoints
without a record keep the empty default glyph, a baseline below the last row is
raised to it, and bytes after the last sequence are ignored.
-/

namespace BitmapFont.FontStream

/-- A baseline raised to the last row of its sequence if it lies below it. -/
def clampBaseline (height baseline : UInt8) : UInt8 :=
  if baseline.toNat < height.toNat then baseline else height - 1

theorem clampBaseline_lt {height : UInt8} (baseline : UInt8) (pos : height ≠ 0) :
    (clampBaseline height baseline).toNat < height.toNat := by
  unfold clampBaseline
  split
  · assumption
  · have positive : 1 ≤ height.toNat := toNat_pos_iff.mpr pos
    have le : (1 : UInt8) ≤ height := UInt8.le_iff_toNat_le.mpr positive
    rw [UInt8.toNat_sub_of_le _ _ le]
    exact Nat.sub_lt positive Nat.one_pos

namespace Reader

/-- Reads one glyph record of sequence `index` and stores its glyph. -/
def record (index : Nat) (s : Sequence) : Reader Sequence := do
  let codepoint ← byte
  let width ← byte
  let pitch ← byte
  if width = 0 then
    fail (.zeroWidth index codepoint.toNat)
  else if pitch.toNat < pitchForWidth width then
    fail (.pitchTooSmall index codepoint.toNat width.toNat pitch.toNat)
  else
    let bitmap ← bytes (pitch.toNat * s.height.toNat)
    return s.withGlyph codepoint
      (Glyph.fromPacked codepoint width s.height pitch.toNat bitmap.toArray)
      (Glyph.fromPacked_height codepoint width pitch.toNat bitmap.toArray s.height_pos)

/-- Reads `count` glyph records of sequence `index` into `s`. -/
def records (index : Nat) : (count : Nat) → (s : Sequence) → Reader Sequence
  | 0, s => pure s
  | count + 1, s => do records index count (← record index s)

/-- Reads the point size of a sequence, which is its height in the legacy layout. -/
def pointSize (version : Version) (height : UInt8) : Reader UInt8 :=
  match version with
  | .legacy => pure height
  | .current => byte

/-- Reads the sequence with the given index. -/
def sequence (version : Version) (index : Nat) : Reader Sequence := do
  let height ← byte
  let baseline ← byte
  let pointSize ← pointSize version height
  let count ← word
  if positive : height = 0 then
    fail (.zeroHeight index)
  else if count > glyphCount then
    fail (.tooManyGlyphs index count)
  else
    records index count
      (Sequence.blank height (clampBaseline height baseline) pointSize
        (clampBaseline_lt baseline positive))

/-- Reads `count` sequences, the first of which has the given index. -/
def sequences (version : Version) : (index count : Nat) → Reader (List Sequence)
  | _, 0 => pure []
  | index, count + 1 => do
    let first ← sequence version index
    let rest ← sequences version (index + 1) count
    return first :: rest

def font : Reader Font := do
  if (← bytes magic.length) ≠ magic then
    fail .badMagic
  else
    let name ← bytes maxNameLength
    let code ← byte
    match Version.ofCode? code with
    | none => fail (.unsupportedVersion code.toNat)
    | some version =>
      let flags ← byte
      match ← word with
      | 0 => fail .noSequences
      | count + 1 =>
        let first ← sequence version 0
        let rest ← sequences version 1 count
        return {
          name := FontName.ofField name
          version
          flags
          sequences := first :: rest
          nonempty := by simp }

end Reader

end BitmapFont.FontStream

namespace BitmapFont.Font

/-- The font that a stream holds, or why it holds none. -/
def decode (stream : List UInt8) : Except FormatError Font :=
  (FontStream.Reader.font.run { rest := stream, offset := 0 }).map Prod.fst

end BitmapFont.Font
