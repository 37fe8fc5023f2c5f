import BitmapFont.Image.Luma

/-!
Reading Netpbm images.

A file starts with `P` and a digit that tells what a pixel is (a bit, a gray
value, a color) and how the pixels are written (in digits or as bytes). Width,
height and, except for bits, the largest sample follow as numbers; blanks
separate them, and a comment runs from `#` to the end of its line. One blank ends
the header. Nothing after the last pixel is looked at.
-/

namespace BitmapFont.Netpbm

/-- What a pixel is. -/
inductive Kind where
  | bitmap
  | graymap
  | pixmap
deriving DecidableEq, Repr

/-- How pixels are written. -/
inductive Encoding where
  | plain
  | raw
deriving DecidableEq, Repr

/-- The kind and encoding that the digit after `P` stands for. -/
def magic? (digit : UInt8) : Option (Kind × Encoding) :=
  match digit.toNat with
  | 0x31 => some (.bitmap, .plain)
  | 0x32 => some (.graymap, .plain)
  | 0x33 => some (.pixmap, .plain)
  | 0x34 => some (.bitmap, .raw)
  | 0x35 => some (.graymap, .raw)
  | 0x36 => some (.pixmap, .raw)
  | _ => none

/-- Whether a byte separates numbers: a tab, a line end, a space. -/
def isBlank (b : UInt8) : Bool :=
  (9 ≤ b && b ≤ 13) || b == 32

/-- Whether a byte ends a line. -/
def isLineEnd (b : UInt8) : Bool :=
  b == 10 || b == 13

/-! ### The header -/

/-- The next word of a header and the bytes after the blank that ends it. `word`
holds what has been read of it, last byte first. A comment may interrupt a
word, and its line end belongs to it. -/
def headerWord (inComment : Bool) (word : List UInt8) :
    List UInt8 → Option (List UInt8 × List UInt8)
  | [] => if word = [] then none else some (word.reverse, [])
  | b :: rest =>
    if inComment then headerWord (!isLineEnd b) word rest
    else if b = 0x23 then headerWord true word rest
    else if isBlank b then
      if word = [] then headerWord false word rest else some (word.reverse, rest)
    else if b < 128 then headerWord false (b :: word) rest
    else none

/-- The value of decimal digits. -/
def digitsValue? (digits : List UInt8) : Option Nat :=
  if digits = [] then none
  else
    digits.foldlM
      (fun value d => if 48 ≤ d ∧ d ≤ 57 then some (10 * value + (d.toNat - 48)) else none) 0

/-- The value of a word of decimal digits, if it is at most `largest`. -/
def wordValue? (largest : Nat) (word : List UInt8) : Option Nat := do
  let value ← digitsValue? word
  if value ≤ largest then some value else none

/-- Largest number that a header may hold. -/
def maxHeaderNumber : Nat := 4294967295

/-- The next number of a header. -/
def headerNumber (bytes : List UInt8) : Option (Nat × List UInt8) := do
  let (word, rest) ← headerWord false [] bytes
  return (← wordValue? maxHeaderNumber word, rest)

/-! ### Pixels in digits -/

/-- The first `n` bits of a plain bitmap, as brightnesses: 1 is black. -/
def plainBits : (n : Nat) → List UInt8 → Option (List UInt8)
  | 0, _ => some []
  | _ + 1, [] => none
  | n + 1, b :: rest =>
    if isBlank b then plainBits (n + 1) rest
    else if b = 0x30 then (plainBits n rest).map (255 :: ·)
    else if b = 0x31 then (plainBits n rest).map (0 :: ·)
    else none

/-- The words of a plain raster. `word` holds what has been read of the current
one, last byte first. -/
def plainWords (word : List UInt8) : List UInt8 → List (List UInt8)
  | [] => if word = [] then [] else [word.reverse]
  | b :: rest =>
    if isBlank b then
      if word = [] then plainWords [] rest else word.reverse :: plainWords [] rest
    else plainWords (b :: word) rest

/-- The first `n` samples of a plain raster, each at most `largest`. -/
def plainSamples (largest n : Nat) (bytes : List UInt8) : Option (List Nat) :=
  let words := (plainWords [] bytes).take n
  if words.length < n then none else words.mapM (wordValue? largest)

/-! ### Images -/

/-- A sample scaled from `0 … maxValue` to `0 … full`, rounded to nearest. -/
def scale (maxValue full sample : Nat) : Nat :=
  min full ((2 * sample * full + maxValue) / (2 * maxValue))

/-- The bytes of samples of up to two bytes, high byte first. -/
def sampleBytes (deep : Bool) (sample : Nat) : List UInt8 :=
  if deep then [UInt8.ofNat (sample / 256), UInt8.ofNat (sample % 256)] else [UInt8.ofNat sample]

/-- The bits of a raw bitmap as brightnesses. Rows start at whole bytes, leftmost
pixel first, and 1 is black. -/
def rawBits (width height : Nat) (bytes : List UInt8) : Option LumaImage :=
  let pitch := (width + 7) / 8
  let raster := bytes.take (pitch * height)
  if raster.length < pitch * height then none
  else
    let raster := raster.toArray
    some (Grid.ofFn width height fun x y =>
      if (raster.getD (y * pitch + x / 8) 0).toBitVec.getMsbD (x % 8) then 0 else 255)

/-- Samples of a raw raster. -/
def rawSamples (deep : Bool) (n : Nat) (bytes : List UInt8) : Option (List Nat) :=
  let size := if deep then 2 * n else n
  let raster := bytes.take size
  if raster.length < size then none
  else some (if deep then pairs raster else raster.map UInt8.toNat)
where
  /-- Numbers of two bytes each, high byte first. -/
  pairs : List UInt8 → List Nat
    | high :: low :: rest => (256 * high.toNat + low.toNat) :: pairs rest
    | _ => []

/-- The brightnesses of a gray or color image. -/
def samplesImage (color : Bool) (encoding : Encoding) (width height maxValue : Nat)
    (bytes : List UInt8) : Option LumaImage := do
  if maxValue = 0 ∨ 65535 < maxValue then
    none
  let deep := decide (255 < maxValue)
  let full := if deep then 65535 else 255
  let n := width * height * (if color then 3 else 1)
  let samples ← match encoding with
    | .plain => plainSamples full n bytes
    | .raw => rawSamples deep n bytes
  let scaled := samples.map (scale maxValue full)
  match color, deep with
  | false, _ =>
    LumaImage.ofSamples? (if deep then .deepGray else .gray) width height
      (scaled.flatMap (sampleBytes deep)).toArray
  | true, false =>
    LumaImage.ofSamples? .rgb width height (scaled.flatMap (sampleBytes deep)).toArray
  | true, true =>
    LumaImage.ofSamples? .rgb width height
      (scaled.map fun sample => UInt8.ofNat ((sample + 128) / 257)).toArray

/-- The brightnesses of a bitmap. -/
def bitmapImage (encoding : Encoding) (width height : Nat) (bytes : List UInt8) :
    Option LumaImage :=
  match encoding with
  | .raw => rawBits width height bytes
  | .plain => do
    let bits ← plainBits (width * height) bytes
    LumaImage.ofSamples? .gray width height bits.toArray

/-- The brightnesses of an image, none if the bytes are not a Netpbm file. -/
def decode? (bytes : List UInt8) : Option LumaImage :=
  match bytes with
  | 0x50 :: digit :: rest => do
    let (kind, encoding) ← magic? digit
    let (width, rest) ← headerNumber rest
    let (height, rest) ← headerNumber rest
    match kind with
    | .bitmap => bitmapImage encoding width height rest
    | .graymap =>
      let (maxValue, rest) ← headerNumber rest
      samplesImage false encoding width height maxValue rest
    | .pixmap =>
      let (maxValue, rest) ← headerNumber rest
      samplesImage true encoding width height maxValue rest
  | _ => none

def extensions : List String := ["pbm", "pgm", "ppm", "pnm", "pam"]

end BitmapFont.Netpbm
