/-!
Causes of failure.

A failing operation reports a `FontError`. Four of its constructors carry a
cause of their own: an argument outside its domain (`ArgumentError`), a byte
stream that is not a font (`FormatError`), a refusal of the file store (`IoError`)
and a file that holds no image (`ImageError`). The wording of every cause is given
by the `message` functions and nowhere else, so the rest of the library compares
causes, never texts. What a reader or an engine that is not part of the library
says of its own failure is passed on as it is.
-/

namespace BitmapFont

/-! ### Arguments outside their domain -/

/-- What is wrong with an argument. -/
inductive ArgumentError where
  /-- A glyph was described by no rows at all. -/
  | noRows
  /-- A glyph was described by more rows than a height can count. -/
  | tooManyRows (rows : Nat)
  /-- A glyph width that is zero or does not fit a byte. -/
  | glyphWidth (width : Nat)
  /-- Row `row` has `length` pixels where the first row has `width`. -/
  | raggedRow (row length width : Nat)
  | zeroHeight
  /-- A baseline on or below the last row. -/
  | baselineTooLow (baseline height : Nat)
  /-- A glyph whose row count differs from the height of its sequence. -/
  | glyphHeight (codepoint rows height : Nat)
  | noSequences
  /-- A font name longer than the header field, which has `limit` bytes. -/
  | nameTooLong (name : String) (limit : Nat)
  | sequenceIndex (index count : Nat)
  /-- More sequences than the header can count. -/
  | tooManySequences (count : Nat)
  | reversedRange (start stop : Int)
  | zeroWidth
  | zeroPointSize
  | nothingToImport
  | noFilePath
  | noSizes
  | emptyCell (width height : Nat)
  /-- An image smaller than the atlas that it should hold. -/
  | imageTooSmall (width height cellWidth cellHeight neededWidth neededHeight : Nat)
deriving DecidableEq, Repr

def ArgumentError.message : ArgumentError → String
  | .noRows => "glyph needs at least one row"
  | .tooManyRows rows => s!"glyph height {rows} exceeds 255"
  | .glyphWidth width => s!"glyph width {width} must be 1-255"
  | .raggedRow row length width => s!"row {row} has length {length} but width is {width}"
  | .zeroHeight => "sequence height must be at least 1"
  | .baselineTooLow baseline height => s!"baseline {baseline} must be below height {height}"
  | .glyphHeight codepoint rows height =>
      s!"glyph {codepoint} has {rows} rows, sequence height is {height}"
  | .noSequences => "a font needs at least one sequence"
  | .nameTooLong name limit => s!"font name '{name}' exceeds {limit} bytes"
  | .sequenceIndex index count => s!"sequence index {index} out of range (font has {count})"
  | .tooManySequences count => s!"{count} sequences do not fit the header"
  | .reversedRange start stop => s!"range start {start} is after end {stop}"
  | .zeroWidth => "width must be at least 1"
  | .zeroPointSize => "point size must be at least 1"
  | .nothingToImport => "nothing to import"
  | .noFilePath => "no file path set"
  | .noSizes => "no sizes given"
  | .emptyCell width height => s!"glyph size {width}x{height} must be at least 1x1"
  | .imageTooSmall width height cellWidth cellHeight neededWidth neededHeight =>
      s!"image is {width}x{height}, a {cellWidth}x{cellHeight} grid needs at least " ++
        s!"{neededWidth}x{neededHeight}"

/-! ### Streams that are no font -/

/-- Why a byte stream is not a font. Sequences are counted from zero. -/
inductive FormatError where
  /-- The stream does not start with the magic bytes. -/
  | badMagic
  /-- The stream ends inside the field that starts at `offset`. -/
  | truncated (offset : Nat)
  /-- The stream declares a version that has no known layout. -/
  | unsupportedVersion (version : Nat)
  | noSequences
  /-- A sequence declares more glyph records than there are codepoints. -/
  | tooManyGlyphs (sequenceIndex count : Nat)
  | zeroHeight (sequenceIndex : Nat)
  | zeroWidth (sequenceIndex codepoint : Nat)
  /-- A glyph record whose rows are too short for its width. -/
  | pitchTooSmall (sequenceIndex codepoint width pitch : Nat)
deriving DecidableEq, Repr

def FormatError.message : FormatError → String
  | .badMagic => "Invalid BMF magic number"
  | .truncated offset => s!"Stream truncated at offset {offset}"
  | .unsupportedVersion version => s!"Unsupported BMF version: {version}"
  | .noSequences => "Font contains no sequences"
  | .tooManyGlyphs sequenceIndex count =>
      s!"Sequence {sequenceIndex} declares {count} glyphs (max 256)"
  | .zeroHeight sequenceIndex => s!"Sequence {sequenceIndex} has zero height"
  | .zeroWidth sequenceIndex codepoint =>
      s!"Glyph {codepoint} in sequence {sequenceIndex} has zero width"
  | .pitchTooSmall sequenceIndex codepoint width pitch =>
      s!"Glyph {codepoint} in sequence {sequenceIndex}: pitch {pitch} too small for width {width}"

/-! ### Refusals of the file store -/

/-- Why a file cannot be read or written. -/
inductive IoError where
  | notFound
  | notDirectory
  | isDirectory
  /-- A component of the path is longer than a directory entry can be. -/
  | nameTooLong
  | nulInPath
  /-- A text file holds bytes that are not UTF-8. -/
  | notText
  | other (description : String)
deriving DecidableEq, Repr

/-- The wording of a refusal, as the system words it. -/
def IoError.message : IoError → String
  | .notFound => "No such file or directory (os error 2)"
  | .notDirectory => "Not a directory (os error 20)"
  | .isDirectory => "Is a directory (os error 21)"
  | .nameTooLong => "File name too long (os error 36)"
  | .nulInPath => "file name contained an unexpected NUL byte"
  | .notText => "stream did not contain valid UTF-8"
  | .other description => description

/-! ### Files that are no image -/

/-- Why a file holds no image that can be read. -/
inductive ImageError where
  | io (cause : IoError)
  /-- The extension of the file name stands for no known kind of image. -/
  | unknownFormat
  /-- The content is not what the extension stands for. -/
  | malformed (description : String)
deriving DecidableEq, Repr

def ImageError.message : ImageError → String
  | .io cause => cause.message
  | .unknownFormat => "The image format could not be determined"
  | .malformed description => description

/-! ### All failures -/

/-- A failure of a library operation. -/
inductive FontError where
  | io (cause : IoError)
  | format (cause : FormatError)
  | argument (cause : ArgumentError)
  /-- An engine cannot draw a codepoint, for the reason that it gives. -/
  | rasterization (codepoint : UInt8) (reason : String)
  /-- Bytes are not a scalable font, for the reason that their reader gives. -/
  | fontLoad (reason : String)
  | image (cause : ImageError)
  /-- The only sequence of a font was to be removed. -/
  | lastSequence
deriving DecidableEq, Repr

def FontError.message : FontError → String
  | .io cause => "I/O error: " ++ cause.message
  | .format cause => "Invalid BMF data: " ++ cause.message
  | .argument cause => "Invalid argument: " ++ cause.message
  | .rasterization codepoint reason => s!"Failed to rasterize codepoint {codepoint}: {reason}"
  | .fontLoad reason => "Failed to load font: " ++ reason
  | .image cause => "Image processing error: " ++ cause.message
  | .lastSequence => "The last sequence of a font cannot be removed"

/-- The wording of the cause that a failure passes on, if it has one. -/
def FontError.source? : FontError → Option String
  | .io cause => some cause.message
  | .format cause => some cause.message
  | .image cause => some cause.message
  | _ => none

end BitmapFont
