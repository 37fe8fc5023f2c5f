import BitmapFont.Image.Mono

/-!
Brightness of color samples.

Gray samples are their own brightness, and red, green and blue count with the
weights of the HDTV primaries. Transparency is ignored.
-/

namespace BitmapFont

/-- How the samples of a pixel are stored. -/
inductive PixelFormat where
  /-- One gray byte. -/
  | gray
  /-- A gray byte and its opacity. -/
  | grayAlpha
  /-- A byte each for red, green and blue. -/
  | rgb
  /-- A byte each for red, green, blue and opacity. -/
  | rgba
  /-- A gray sample of two bytes, high byte first. -/
  | deepGray
deriving DecidableEq, Repr

namespace PixelFormat

/-- Bytes that a pixel takes. -/
def bytesPerPixel : PixelFormat → Nat
  | gray => 1
  | grayAlpha => 2
  | rgb => 3
  | rgba => 4
  | deepGray => 2

/-- The brightness of a color, rounded to the nearest integer. -/
def colorLuma (red green blue : UInt8) : UInt8 :=
  UInt8.ofNat ((2126 * red.toNat + 7152 * green.toNat + 722 * blue.toNat + 5000) / 10000)

/-- The brightness of a two-byte gray sample, rounded to the nearest integer. -/
def deepLuma (high low : UInt8) : UInt8 :=
  UInt8.ofNat ((256 * high.toNat + low.toNat + 128) / 257)

/-- The brightness of the pixel whose bytes start at `start`. -/
def luma (format : PixelFormat) (bytes : Array UInt8) (start : Nat) : UInt8 :=
  let sample (k : Nat) := bytes.getD (start + k) 0
  match format with
  | gray | grayAlpha => sample 0
  | rgb | rgba => colorLuma (sample 0) (sample 1) (sample 2)
  | deepGray => deepLuma (sample 0) (sample 1)

end PixelFormat

/-- The brightnesses of an image whose pixels are stored row by row; none if
bytes are missing. -/
def LumaImage.ofSamples? (format : PixelFormat) (width height : Nat) (bytes : Array UInt8) :
    Option LumaImage :=
  if width * height * format.bytesPerPixel ≤ bytes.size then
    some (Grid.ofFn width height fun x y =>
      format.luma bytes ((y * width + x) * format.bytesPerPixel))
  else none

end BitmapFont
