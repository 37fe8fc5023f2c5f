import BitmapFont.FileStore
import BitmapFont.Image.Netpbm

/-!
Images in files. The extension of a file name decides how the file is read.
-/

namespace BitmapFont.MonoImage

/-- Whether a path has the extension of a Netpbm file, in any case. -/
def hasNetpbmExtension (path : String) : Bool :=
  match (Path.fileName? path.toList).bind Path.extension? with
  | some extension => Netpbm.extensions.contains (String.ofList (extension.map Char.toLower))
  | none => false

/-- The one-bit form of the image in a file with the given path, whose content was
read, or the reason why it was not. -/
def ofContent (path : String) (content : Except IoError (List UInt8)) :
    Except FontError MonoImage :=
  match content with
  | .error cause => .error (.image (.io cause))
  | .ok bytes =>
    if hasNetpbmExtension path then
      match Netpbm.decode? bytes with
      | some image => .ok (ofLuma image)
      | none => .error (.image (.malformed "Format error decoding Pnm"))
    else .error (.image .unknownFormat)

/-- The one-bit form of the image in the file at a path. -/
def load (files : FileStore) (path : String) : Except FontError MonoImage :=
  ofContent path (files.read path)

end BitmapFont.MonoImage
