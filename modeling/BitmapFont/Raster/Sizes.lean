import BitmapFont.Raster.Sequence

/-!
The sizes of an import: the standard ones, if asked for, before the explicit ones,
and none twice.
-/

namespace BitmapFont.Raster

/-- A list of sizes with one more after it, unless the list has it already. -/
def addSize (sizes : List UInt8) (size : UInt8) : List UInt8 :=
  if size ∈ sizes then sizes else sizes ++ [size]

def collectSizes (sizes : List UInt8) (standard : Bool) : List UInt8 :=
  sizes.foldl addSize (if standard then standardSizes else [])

end BitmapFont.Raster
