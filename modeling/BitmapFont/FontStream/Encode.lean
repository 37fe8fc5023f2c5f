import BitmapFont.Change
import BitmapFont.Font.Basic

/-!
Writing fonts as byte streams.

A stream is the 36 header bytes followed by the sequences; all counts are little
endian. Each sequence is its height, its baseline, in the current layout its
point size, the number of glyph records, and the records: codepoint, width,
bytes per row, and the packed rows.

`Font.writeTo` appends a stream to a byte vector field by field, after checking
that the font can be written; `Font.encodeAs` is the stream as a whole.
-/

namespace BitmapFont

namespace FontStream

/-- The bytes that every stream starts with: `BMF` and a NUL. -/
def magic : List UInt8 := [0x42, 0x4D, 0x46, 0]

/-- The largest number that a two-byte field holds. -/
def maxWord : Nat := 65535

/-- A two-byte field, low byte first. -/
def word (n : Nat) : List UInt8 :=
  [UInt8.ofNat (n % 256), UInt8.ofNat (n / 256)]

def glyphRecord (g : Glyph) : List UInt8 :=
  g.codepoint :: g.width :: UInt8.ofNat g.pitch :: g.data.toList

/-- The point size field, which the legacy layout lacks. -/
def pointSizeField (version : Version) (s : Sequence) : List UInt8 :=
  match version with
  | .legacy => []
  | .current => [s.pointSize]

def sequenceBlock (version : Version) (s : Sequence) : List UInt8 :=
  s.height :: s.baseline :: pointSizeField version s ++ word glyphCount ++
    s.glyphs.toList.flatMap glyphRecord

def header (version : Version) (f : Font) : List UInt8 :=
  magic ++ f.name.field ++ [version.code, f.flags] ++ word f.sequences.length

/-- Appends a field to a byte vector. -/
def put (field : List UInt8) : Change (Array UInt8) Unit :=
  modify fun out : Array UInt8 => out ++ field

def putSequence (version : Version) (s : Sequence) : Change (Array UInt8) Unit := do
  put [s.height, s.baseline]
  put (pointSizeField version s)
  put (word glyphCount)
  forM s.glyphs.toList fun g => put (glyphRecord g)

end FontStream

namespace Font

open FontStream

/-- The stream of a font in the given layout. It fails only if the header cannot
count the sequences. -/
def encodeAs (version : Version) (f : Font) : Except FontError (List UInt8) :=
  if f.sequences.length ≤ maxWord then
    .ok (header version f ++ f.sequences.flatMap (sequenceBlock version))
  else .error (.argument (.tooManySequences f.sequences.length))

/-- Appends the stream of a font to a byte vector, in the layout that a version byte
stands for. -/
def writeTo (code : UInt8) (f : Font) : Change (Array UInt8) Unit := do
  match Version.ofCode? code with
  | none => throw (.format (.unsupportedVersion code.toNat))
  | some version =>
    if f.sequences.length ≤ maxWord then
      put (header version f)
      forM f.sequences (putSequence version)
    else throw (.argument (.tooManySequences f.sequences.length))

/-- What is written to an empty byte vector. -/
def write (code : UInt8) (f : Font) : Except FontError (List UInt8) :=
  let (answer, out) := (f.writeTo code).on #[]
  answer.map fun _ => out.toList

/-- The stream of a font in the current layout. -/
def encode (f : Font) : Except FontError (List UInt8) :=
  f.encodeAs .current

/-- The stream of a font for readers that know no point sizes. -/
def encodeLegacy (f : Font) : Except FontError (List UInt8) :=
  f.encodeAs .legacy

end Font

end BitmapFont
