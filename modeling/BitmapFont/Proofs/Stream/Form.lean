import BitmapFont.FontStream.Encode
import Mathlib.Data.List.Forall2

/-!
The form of a font stream, and the font that it describes.

A `StreamForm` lists the fields of a stream together with the bounds that they
keep; `StreamForm.bytes` lays them out. `StreamForm.Describes` says which font
the fields stand for without reading them in order: a codepoint has the glyph of
the last record for it, and pixel `(x, y)` of that glyph is one bit of the
record's bitmap. A form may be laid out in ways that no font is written in: with
rows further apart than needed, records in any order, several records for one
codepoint, and none for others.
-/

namespace BitmapFont.FontStream

/-- A glyph record. Its rows lie `pitch` bytes apart. -/
structure RecordForm where
  codepoint : UInt8
  width : UInt8
  pitch : UInt8
  bitmap : List UInt8
  width_pos : 1 ≤ width.toNat
  pitch_ge : pitchForWidth width ≤ pitch.toNat

namespace RecordForm

/-- The bytes of a record. -/
def bytes (r : RecordForm) : List UInt8 :=
  r.codepoint :: r.width :: r.pitch :: r.bitmap

/-- The bit of the bitmap that stands for pixel `(x, y)`. -/
def pixel (r : RecordForm) (x y : Nat) : Bool :=
  (r.bitmap.getD (y * r.pitch.toNat + x / 8) 0).toNat.testBit (7 - x % 8)

end RecordForm

/-- A sequence with its records. The bitmap of each record holds the rows of the
sequence and nothing else. -/
structure SequenceForm where
  height : UInt8
  baseline : UInt8
  /-- The point size byte, which a legacy stream lacks. -/
  pointSize : UInt8
  records : List RecordForm
  height_pos : 1 ≤ height.toNat
  length_le : records.length ≤ glyphCount
  length_bitmap : ∀ r ∈ records, r.bitmap.length = r.pitch.toNat * height.toNat

namespace SequenceForm

/-- The point size field in a layout. -/
def pointSizeBytes (version : Version) (form : SequenceForm) : List UInt8 :=
  match version with
  | .legacy => []
  | .current => [form.pointSize]

/-- The bytes of a sequence in a layout. -/
def bytes (version : Version) (form : SequenceForm) : List UInt8 :=
  form.height :: form.baseline :: form.pointSizeBytes version ++ word form.records.length ++
    form.records.flatMap RecordForm.bytes

/-- The record that decides the glyph of a codepoint: the last one for it. -/
def record? (form : SequenceForm) (codepoint : UInt8) : Option RecordForm :=
  (form.records.filter fun r => r.codepoint = codepoint).getLast?

/-- The sequence that a form stands for in a layout. -/
structure Describes (version : Version) (form : SequenceForm) (s : Sequence) : Prop where
  height : s.height = form.height
  baseline : s.baseline.toNat = min form.baseline.toNat (form.height.toNat - 1)
  pointSize : s.pointSize = match version with
    | .legacy => form.height
    | .current => form.pointSize
  recorded : ∀ codepoint r, form.record? codepoint = some r →
    (s.glyph codepoint).width = r.width ∧
      ∀ x y, x < r.width.toNat → y < form.height.toNat →
        (s.glyph codepoint).pixel x y = r.pixel x y
  unrecorded : ∀ codepoint, form.record? codepoint = none →
    (s.glyph codepoint).width = (if codepoint = 32 then 8 else 6) ∧
      ∀ x y, (s.glyph codepoint).pixel x y = false

end SequenceForm

/-- A whole stream. -/
structure StreamForm where
  name : List UInt8
  version : Version
  flags : UInt8
  sequences : List SequenceForm
  length_name : name.length = maxNameLength
  nonempty : 1 ≤ sequences.length
  length_le : sequences.length ≤ maxWord

namespace StreamForm

/-- The bytes of a stream. -/
def bytes (form : StreamForm) : List UInt8 :=
  magic ++ form.name ++ [form.version.code, form.flags] ++ word form.sequences.length ++
    form.sequences.flatMap (SequenceForm.bytes form.version)

/-- The font that a form stands for. -/
structure Describes (form : StreamForm) (f : Font) : Prop where
  name : f.name.chars.map Char.toNat =
    ((form.name.takeWhile (· != 0)).filter (· < 128)).map UInt8.toNat
  version : f.version = form.version
  flags : f.flags = form.flags
  sequences : List.Forall₂ (SequenceForm.Describes form.version) form.sequences f.sequences

end StreamForm

end BitmapFont.FontStream
