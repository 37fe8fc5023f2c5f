import BitmapFont.Raster.Engine

/-!
Files of scalable fonts.

A format of scalable fonts is a reader from bytes to a font engine, which says what is
wrong with bytes that it cannot read. No such reader is part of the library:
`OutlineFormat.builtIn` refuses every file, and programs that have one pass it instead.
-/

namespace BitmapFont

/-- A reader of scalable fonts. -/
abbrev OutlineFormat := List UInt8 → Except String FontEngine

/-- The reader that knows no font. -/
def OutlineFormat.builtIn : OutlineFormat :=
  fun _ => .error "unknown font format"

namespace FontEngine

/-- The engine of a font in a format. -/
def ofBytes (format : OutlineFormat) (bytes : List UInt8) : Except FontError FontEngine :=
  (format bytes).mapError .fontLoad

/-- The engine of the font in a file whose content was read, or the reason why it
was not. -/
def ofContent (format : OutlineFormat) (content : Except IoError (List UInt8)) :
    Except FontError FontEngine :=
  match content with
  | .ok bytes => ofBytes format bytes
  | .error cause => .error (.io cause)

end FontEngine

end BitmapFont
