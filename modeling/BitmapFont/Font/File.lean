import BitmapFont.FileStore
import BitmapFont.FontStream.Decode

/-!
Fonts in files. A font is always saved in the current layout, and a file that is
no font leaves nothing behind.
-/

namespace BitmapFont.Font

/-- The font that a stream holds. -/
def ofStream (stream : List UInt8) : Except FontError Font :=
  match decode stream with
  | .ok f => .ok f
  | .error cause => .error (.format cause)

/-- The font in a file whose content was read, or the reason why it was not. -/
def ofContent (content : Except IoError (List UInt8)) : Except FontError Font :=
  match content with
  | .ok stream => ofStream stream
  | .error cause => .error (.io cause)

def load (files : FileStore) (path : String) : Except FontError Font :=
  ofContent (files.read path)

/-- The store after saving the font at a path. -/
def save (f : Font) (files : FileStore) (path : String) : Except FontError FileStore := do
  let stream ← f.encode
  (files.write path stream).mapError .io

end BitmapFont.Font
