import BitmapFont.Error
import BitmapFont.Glyph.Packing
import BitmapFont.Grid

/-!
One-bit glyphs.

A glyph is a bitmap of at least one row and one column, stored as packed rows
without gaps between them. The bits of a row beyond the width are clear in every
glyph, so the packed bytes are a function of the pixels. Main facts:

* `Glyph.pixel_fromFn` and `Glyph.pixel_setPixel` describe every way of building
  a bitmap through the view `Glyph.pixel`;
* `Glyph.ext_pixels`: glyphs of one codepoint and size with equal pixels are
  equal, bytes included.
-/

namespace BitmapFont

open Packing

/-- Width of the empty glyph of a codepoint. -/
def defaultGlyphWidth : UInt8 := 6

/-- Width of the empty glyph of the space. -/
def defaultSpaceWidth : UInt8 := 8

def spaceCodepoint : UInt8 := 32

theorem toNat_pos_iff {n : UInt8} : 0 < n.toNat ↔ n ≠ 0 :=
  UInt8.lt_iff_toNat_lt.symm.trans UInt8.pos_iff_ne_zero

/-- A dimension raised to at least one. -/
def atLeastOne (n : UInt8) : UInt8 :=
  if n = 0 then 1 else n

theorem atLeastOne_pos (n : UInt8) : 0 < (atLeastOne n).toNat := by
  unfold atLeastOne
  split
  · decide
  · rename_i h
    exact toNat_pos_iff.mpr h

theorem atLeastOne_of_pos {n : UInt8} (h : 0 < n.toNat) : atLeastOne n = n := by
  unfold atLeastOne
  split
  · rename_i h0
    simp [h0] at h
  · rfl

theorem toNat_ofNat_of_le {n : Nat} (le : n ≤ 255) : (UInt8.ofNat n).toNat = n := by
  rw [UInt8.toNat_ofNat', Nat.mod_eq_of_lt (by omega)]

theorem atLeastOne_ofNat {n : Nat} (pos : 1 ≤ n) (le : n ≤ 255) :
    atLeastOne (UInt8.ofNat n) = UInt8.ofNat n :=
  atLeastOne_of_pos (by rwa [toNat_ofNat_of_le le])

/-- A one-bit bitmap kept under a codepoint. Row `y` holds its pixels in the
bytes from `y * pitch` on, leftmost pixel first. -/
structure Glyph where
  codepoint : UInt8
  width : UInt8
  height : UInt8
  /-- The packed rows, top row first. -/
  data : Array UInt8
  width_pos : 0 < width.toNat
  height_pos : 0 < height.toNat
  size_data : data.size = pitchForWidth width * height.toNat
  padding_clear : ∀ x y, width.toNat ≤ x → x < 8 * pitchForWidth width → y < height.toNat →
    bit (data.getD (y * pitchForWidth width + x / 8) 0) (x % 8) = false
deriving DecidableEq

namespace Glyph

/-- Bytes that each row of the glyph takes. -/
def pitch (g : Glyph) : Nat :=
  pitchForWidth g.width

theorem pitch_pos (g : Glyph) : 0 < g.pitch := by
  have := g.width_pos
  unfold pitch pitchForWidth
  omega

/-- The pixel in column `x` of row `y`, clear outside the bitmap. -/
def pixel (g : Glyph) (x y : Nat) : Bool :=
  decide (x < g.width.toNat) && decide (y < g.height.toNat) &&
    bit (g.data.getD (y * g.pitch + x / 8) 0) (x % 8)

@[simp] theorem atLeastOne_width (g : Glyph) : atLeastOne g.width = g.width :=
  atLeastOne_of_pos g.width_pos

@[simp] theorem atLeastOne_height (g : Glyph) : atLeastOne g.height = g.height :=
  atLeastOne_of_pos g.height_pos

def InBounds (g : Glyph) (x y : Nat) : Prop :=
  x < g.width.toNat ∧ y < g.height.toNat

instance (g : Glyph) (x y : Nat) : Decidable (g.InBounds x y) :=
  inferInstanceAs (Decidable (_ ∧ _))

/-! ### Building bitmaps -/

/-- Byte `i` of the packed rows of the picture `f`. -/
private def packedByte (width : UInt8) (f : Nat → Nat → Bool) (i : Nat) : UInt8 :=
  let x := i % pitchForWidth width * 8
  byteOf fun k => decide (x + k < width.toNat) && f (x + k) (i / pitchForWidth width)

private theorem bit_packedByte (width : UInt8) (f : Nat → Nat → Bool) {x : Nat} (y : Nat)
    (h : x < 8 * pitchForWidth width) :
    bit (packedByte width f (y * pitchForWidth width + x / 8)) (x % 8) =
      (decide (x < width.toNat) && f x y) := by
  have inRow : x / 8 < pitchForWidth width := by omega
  have row : (y * pitchForWidth width + x / 8) / pitchForWidth width = y := Grid.index_div inRow
  have column : (y * pitchForWidth width + x / 8) % pitchForWidth width = x / 8 :=
    Nat.mul_add_mod_of_lt inRow
  have whole : x / 8 * 8 + x % 8 = x := by omega
  unfold packedByte
  rw [bit_byteOf _ (by omega)]
  simp only [row, column, whole]

private theorem getD_packed (width height : UInt8) (f : Nat → Nat → Bool) {x y : Nat}
    (hx : x < 8 * pitchForWidth width) (hy : y < height.toNat) :
    (Array.ofFn fun i : Fin (pitchForWidth width * height.toNat) =>
      packedByte width f i).getD (y * pitchForWidth width + x / 8) 0 =
        packedByte width f (y * pitchForWidth width + x / 8) := by
  have lt : y * pitchForWidth width + x / 8 < pitchForWidth width * height.toNat :=
    Grid.index_lt (by omega) hy
  simp [Array.getD, lt]

/-- The glyph whose pixel `(x, y)` is `f x y`. Dimensions are raised to at least
one. -/
def fromFn (codepoint width height : UInt8) (f : Nat → Nat → Bool) : Glyph where
  codepoint := codepoint
  width := atLeastOne width
  height := atLeastOne height
  data := Array.ofFn fun i : Fin (pitchForWidth (atLeastOne width) * (atLeastOne height).toNat) =>
    packedByte (atLeastOne width) f i
  width_pos := atLeastOne_pos width
  height_pos := atLeastOne_pos height
  size_data := by simp
  padding_clear := by
    intro x y hw hx hy
    rw [getD_packed _ _ _ hx hy, bit_packedByte _ _ _ hx]
    simp [Nat.not_lt.mpr hw]

/-- The all-clear glyph. Dimensions are raised to at least one. -/
def blank (codepoint width height : UInt8) : Glyph :=
  fromFn codepoint width height fun _ _ => false

/-- The glyph that a new sequence holds for `codepoint`. -/
def emptyDefault (codepoint height : UInt8) : Glyph :=
  blank codepoint (if codepoint = spaceCodepoint then defaultSpaceWidth else defaultGlyphWidth)
    height

/-- The glyph with the given rows, top row first. All rows need the same length,
and both dimensions have to fit a byte. -/
def fromRows (codepoint : UInt8) (rows : List (List Bool)) : Except FontError Glyph :=
  match rows with
  | [] => .error (.argument .noRows)
  | first :: _ =>
    let width := first.length
    if rows.length > 255 then .error (.argument (.tooManyRows rows.length))
    else if width = 0 ∨ width > 255 then .error (.argument (.glyphWidth width))
    else
      match rows.findIdx? fun row => row.length != width with
      | some y => .error (.argument (.raggedRow y (rows.getD y []).length width))
      | none =>
        let picture := (rows.map List.toArray).toArray
        .ok (fromFn codepoint (UInt8.ofNat width) (UInt8.ofNat rows.length) fun x y =>
          (picture.getD y #[]).getD x false)

/-- The glyph whose rows are stored `pitch` bytes apart. Bits beyond the width
are dropped, and a pixel that the bytes do not reach is clear.

The pitch is a number without bound. In arithmetic of 64 bits, all addresses stay in
range, and the glyph is the same, if `(height - 1) * pitch + (width - 1) / 8 < 2 ^ 64`, as
for every pitch below `2 ^ 56`. -/
def fromPacked (codepoint width height : UInt8) (pitch : Nat) (bytes : Array UInt8) : Glyph :=
  fromFn codepoint width height fun x y => bit (bytes.getD (y * pitch + x / 8) 0) (x % 8)

/-- The same bitmap under another codepoint. -/
def withCodepoint (g : Glyph) (codepoint : UInt8) : Glyph :=
  { g with codepoint }

@[simp] theorem fromFn_codepoint (codepoint width height : UInt8) (f : Nat → Nat → Bool) :
    (fromFn codepoint width height f).codepoint = codepoint := rfl

@[simp] theorem fromFn_width (codepoint width height : UInt8) (f : Nat → Nat → Bool) :
    (fromFn codepoint width height f).width = atLeastOne width := rfl

@[simp] theorem fromFn_height (codepoint width height : UInt8) (f : Nat → Nat → Bool) :
    (fromFn codepoint width height f).height = atLeastOne height := rfl

theorem blank_height (codepoint width : UInt8) {height : UInt8} (pos : 0 < height.toNat) :
    (blank codepoint width height).height = height :=
  atLeastOne_of_pos pos

@[simp] theorem emptyDefault_codepoint (codepoint height : UInt8) :
    (emptyDefault codepoint height).codepoint = codepoint := rfl

theorem emptyDefault_height (codepoint : UInt8) {height : UInt8} (pos : 0 < height.toNat) :
    (emptyDefault codepoint height).height = height :=
  atLeastOne_of_pos pos

theorem fromPacked_height (codepoint width : UInt8) {height : UInt8} (pitch : Nat)
    (bytes : Array UInt8) (pos : 0 < height.toNat) :
    (fromPacked codepoint width height pitch bytes).height = height :=
  atLeastOne_of_pos pos

@[simp] theorem withCodepoint_codepoint (g : Glyph) (codepoint : UInt8) :
    (g.withCodepoint codepoint).codepoint = codepoint := rfl

@[simp] theorem withCodepoint_width (g : Glyph) (codepoint : UInt8) :
    (g.withCodepoint codepoint).width = g.width := rfl

@[simp] theorem withCodepoint_height (g : Glyph) (codepoint : UInt8) :
    (g.withCodepoint codepoint).height = g.height := rfl

@[simp] theorem pixel_withCodepoint (g : Glyph) (codepoint : UInt8) (x y : Nat) :
    (g.withCodepoint codepoint).pixel x y = g.pixel x y := rfl

/-- A glyph under its own codepoint is itself. -/
@[simp] theorem withCodepoint_self (g : Glyph) : g.withCodepoint g.codepoint = g := rfl

/-- Every pixel of a built glyph is the one asked for. -/
theorem pixel_fromFn (codepoint width height : UInt8) (f : Nat → Nat → Bool) (x y : Nat) :
    (fromFn codepoint width height f).pixel x y =
      (decide (x < (atLeastOne width).toNat) && decide (y < (atLeastOne height).toNat) &&
        f x y) := by
  unfold pixel pitch
  by_cases hx : x < (atLeastOne width).toNat
  · by_cases hy : y < (atLeastOne height).toNat
    · have inRow : x < 8 * pitchForWidth (atLeastOne width) :=
        Nat.lt_of_lt_of_le hx (le_pitchForWidth _)
      simp only [fromFn_width, fromFn_height, hx, hy, decide_true, Bool.true_and]
      change bit ((Array.ofFn _).getD _ 0) _ = _
      rw [getD_packed _ _ _ inRow hy, bit_packedByte _ _ _ inRow]
      simp [hx]
    · simp [hy]
  · simp [hx]

@[simp] theorem pixel_blank (codepoint width height : UInt8) (x y : Nat) :
    (blank codepoint width height).pixel x y = false := by
  simp [blank, pixel_fromFn]

/-- Only pixels inside the bitmap are set. -/
theorem inBounds_of_pixel {g : Glyph} {x y : Nat} (h : g.pixel x y = true) : g.InBounds x y := by
  simp only [pixel, Bool.and_eq_true, decide_eq_true_eq] at h
  exact h.1

theorem pixel_of_le_x {g : Glyph} {x y : Nat} (h : g.width.toNat ≤ x) : g.pixel x y = false := by
  simp [pixel, Nat.not_lt.mpr h]

theorem pixel_of_le_y {g : Glyph} {x y : Nat} (h : g.height.toNat ≤ y) : g.pixel x y = false := by
  simp [pixel, Nat.not_lt.mpr h]

/-- The packed bytes hold the pixels: bit `x % 8` of the byte of pixel `(x, y)` is
that pixel, also in the padding, which is clear. -/
theorem bit_data (g : Glyph) {x y : Nat} (hx : x < 8 * g.pitch) (hy : y < g.height.toNat) :
    bit (g.data.getD (y * g.pitch + x / 8) 0) (x % 8) = g.pixel x y := by
  by_cases hw : x < g.width.toNat
  · simp [pixel, hw, hy]
  · rw [pixel_of_le_x (by omega)]
    exact g.padding_clear x y (by omega) hx hy

/-- Glyphs of one codepoint and size with equal pixels are equal. -/
theorem ext_pixels {a b : Glyph} (codepoint : a.codepoint = b.codepoint)
    (width : a.width = b.width) (height : a.height = b.height)
    (pixels : ∀ x y, a.InBounds x y → a.pixel x y = b.pixel x y) : a = b := by
  have pitch_eq : a.pitch = b.pitch := by simp [pitch, width]
  have size_eq : a.data.size = b.data.size := by rw [a.size_data, b.size_data, width, height]
  have data : a.data = b.data := by
    refine Array.ext size_eq fun i ha hb => eq_of_bit_eq fun k hk => ?_
    have hy : i / a.pitch < a.height.toNat := Nat.div_lt_of_lt_mul (a.size_data ▸ ha)
    have hq : i % a.pitch < a.pitch := Nat.mod_lt _ a.pitch_pos
    have hx : i % a.pitch * 8 + k < 8 * a.pitch := by omega
    obtain ⟨index, column⟩ := index_of_bit a.pitch i hk
    have ea := a.bit_data hx hy
    have eb := b.bit_data (pitch_eq ▸ hx) (height ▸ hy)
    rw [index, column] at ea
    rw [← pitch_eq, index, column] at eb
    simp only [Array.getD, ha, hb, dite_true] at ea eb
    change bit a.data[i] k = bit b.data[i] k
    refine ea.trans (Eq.trans ?_ eb.symm)
    by_cases hw : i % a.pitch * 8 + k < a.width.toNat
    · exact pixels _ _ ⟨hw, hy⟩
    · rw [pixel_of_le_x (by omega), pixel_of_le_x (by rw [← width]; omega)]
  cases a; cases b
  simp_all

/-! ### Single pixels -/

private theorem bit_modified {pitch height : Nat} (data : Array UInt8)
    (size : data.size = pitch * height) {x y u v : Nat} (value : Bool)
    (hx : x < 8 * pitch) (hy : y < height) (hu : u < 8 * pitch) :
    bit ((data.modify (y * pitch + x / 8) (withBit · (x % 8) value)).getD
        (v * pitch + u / 8) 0) (u % 8) =
      if u = x ∧ v = y then value else bit (data.getD (v * pitch + u / 8) 0) (u % 8) := by
  have lt : y * pitch + x / 8 < data.size := size ▸ Grid.index_lt (by omega) hy
  by_cases same : y * pitch + x / 8 = v * pitch + u / 8
  · obtain ⟨col, rfl⟩ := Grid.index_inj (by omega) (by omega) same
    rw [← col]
    simp only [Array.getD, Array.size_modify, lt, dite_true, Array.getElem_modify_self,
      Array.getInternal_eq_getElem, and_true]
    rw [bit_withBit _ _ (by omega) (by omega)]
    have : u % 8 = x % 8 ↔ u = x := by omega
    simp only [this]
  · have other : ¬(u = x ∧ v = y) := by
      rintro ⟨rfl, rfl⟩
      exact same rfl
    rw [if_neg other]
    simp only [Array.getD, Array.size_modify, Array.getInternal_eq_getElem]
    split
    · rw [Array.getElem_modify_of_ne same]
    · rfl

/-- The glyph with pixel `(x, y)` set or cleared; the glyph itself if that pixel
lies outside the bitmap. -/
def setPixel (g : Glyph) (x y : Nat) (value : Bool) : Glyph :=
  if inside : g.InBounds x y then
    { g with
      data := g.data.modify (y * g.pitch + x / 8) (withBit · (x % 8) value)
      size_data := by rw [Array.size_modify, g.size_data]
      padding_clear := by
        intro x' y' hw hx' hy'
        have hx : x < 8 * g.pitch := Nat.lt_of_lt_of_le inside.1 (le_pitchForWidth _)
        have outside : ¬(x' = x ∧ y' = y) := by
          rintro ⟨rfl, rfl⟩
          exact Nat.not_lt.mpr hw inside.1
        have modified := bit_modified g.data g.size_data value (v := y') hx inside.2 hx'
        rw [if_neg outside] at modified
        exact modified.trans (g.padding_clear x' y' hw hx' hy') }
  else g

@[simp] theorem setPixel_codepoint (g : Glyph) (x y : Nat) (value : Bool) :
    (g.setPixel x y value).codepoint = g.codepoint := by
  unfold setPixel; split <;> rfl

@[simp] theorem setPixel_width (g : Glyph) (x y : Nat) (value : Bool) :
    (g.setPixel x y value).width = g.width := by
  unfold setPixel; split <;> rfl

@[simp] theorem setPixel_height (g : Glyph) (x y : Nat) (value : Bool) :
    (g.setPixel x y value).height = g.height := by
  unfold setPixel; split <;> rfl

/-- Writing a pixel inside the bitmap changes that pixel only. -/
theorem pixel_setPixel {g : Glyph} {x y : Nat} (value : Bool) (inside : g.InBounds x y)
    (x' y' : Nat) :
    (g.setPixel x y value).pixel x' y' =
      if x' = x ∧ y' = y then value else g.pixel x' y' := by
  have hx : x < 8 * g.pitch := Nat.lt_of_lt_of_le inside.1 (le_pitchForWidth _)
  unfold setPixel
  rw [dif_pos inside]
  unfold pixel
  by_cases hw : x' < g.width.toNat
  · by_cases hh : y' < g.height.toNat
    · have hx' : x' < 8 * g.pitch := Nat.lt_of_lt_of_le hw (le_pitchForWidth _)
      simp only [hw, hh, decide_true, Bool.true_and]
      exact bit_modified g.data g.size_data value hx inside.2 hx'
    · have other : ¬(x' = x ∧ y' = y) := by
        rintro ⟨rfl, rfl⟩
        exact hh inside.2
      simp [hh, other]
  · have other : ¬(x' = x ∧ y' = y) := by
      rintro ⟨rfl, rfl⟩
      exact hw inside.1
    simp [hw, other]

/-- Writing a pixel outside the bitmap changes nothing. -/
theorem setPixel_of_not_inBounds {g : Glyph} {x y : Nat} (value : Bool)
    (outside : ¬g.InBounds x y) : g.setPixel x y value = g := by
  unfold setPixel
  rw [dif_neg outside]

/-! ### Queries -/

/-- The packed bytes of row `y`, none if there is no such row. The ends of a row are
numbers without bounds; arithmetic of 64 bits gives the same bytes if
`(y + 1) * pitch < 2 ^ 64`. -/
def rowBytes (g : Glyph) (y : Nat) : Array UInt8 :=
  g.data.extract (y * g.pitch) ((y + 1) * g.pitch)

def isEmpty (g : Glyph) : Bool :=
  g.data.all (· == 0)

/-- Whether no pixel of row `y` is set. -/
def isRowEmpty (g : Glyph) (y : Nat) : Bool :=
  (g.rowBytes y).all (· == 0)

/-- Whether no pixel of column `x` is set. -/
def isColumnEmpty (g : Glyph) (x : Nat) : Bool :=
  (List.range g.height.toNat).all fun y => !g.pixel x y

def countPixels (g : Glyph) : Nat :=
  g.data.foldl (fun count b => count + bitCount b) 0

/-- The pixels row by row, top row first. -/
def toRows (g : Glyph) : List (List Bool) :=
  (List.range g.height.toNat).map fun y => (List.range g.width.toNat).map fun x => g.pixel x y

end Glyph

end BitmapFont
