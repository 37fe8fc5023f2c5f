/-!
Packed pixel rows.

Eight pixels share a byte, the leftmost in the most significant bit. A row of
`width` pixels takes `pitchForWidth width` bytes. Main facts: `bit_byteOf` says
that packing eight pixels and looking one of them up gives it back, and
`bit_withBit` that writing one pixel of a byte changes that pixel only.
-/

namespace BitmapFont

/-- Bytes that one row of `width` pixels takes. -/
def pitchForWidth (width : UInt8) : Nat :=
  (width.toNat + 7) / 8

/-- A row has room for all its pixels. -/
theorem le_pitchForWidth (width : UInt8) : width.toNat ≤ 8 * pitchForWidth width := by
  unfold pitchForWidth; omega

/-- The byte that holds pixel `x` lies inside the row. -/
theorem div_lt_pitchForWidth {width : UInt8} {x : Nat} (h : x < width.toNat) :
    x / 8 < pitchForWidth width := by
  unfold pitchForWidth; omega

theorem pitchForWidth_le (width : UInt8) : pitchForWidth width ≤ 32 := by
  have := width.toNat_lt
  unfold pitchForWidth; omega

namespace Packing

/-- Pixel `k` of a packed byte, counted from the left; clear from 8 on. -/
def bit (b : UInt8) (k : Nat) : Bool :=
  b.toBitVec.getMsbD k

/-- The byte whose only set pixel is `k`. -/
def mask (k : Nat) : UInt8 :=
  128 >>> UInt8.ofNat k

/-- The byte with pixels `f 0`, …, `f 7`. -/
def byteOf (f : Nat → Bool) : UInt8 :=
  cond (f 0) 128 0 ||| cond (f 1) 64 0 ||| cond (f 2) 32 0 ||| cond (f 3) 16 0 |||
    cond (f 4) 8 0 ||| cond (f 5) 4 0 ||| cond (f 6) 2 0 ||| cond (f 7) 1 0

/-- `b` with pixel `k` set or cleared. -/
def withBit (b : UInt8) (k : Nat) (value : Bool) : UInt8 :=
  if value then b ||| mask k else b &&& ~~~mask k

/-- Number of set pixels of a byte. -/
def bitCount (b : UInt8) : Nat :=
  (List.range 8).countP (bit b)

@[simp] theorem bit_zero (k : Nat) : bit 0 k = false := by
  simp [bit]

/-- Pixel `k` of a packed byte is one of its bits, counted from the most
significant. -/
theorem bit_eq_testBit (b : UInt8) {k : Nat} (h : k < 8) :
    bit b k = b.toNat.testBit (7 - k) := by
  unfold bit
  rw [BitVec.getMsbD_eq_getLsbD, BitVec.getLsbD, UInt8.toNat_toBitVec]
  simp [h]

theorem bit_or (a b : UInt8) (k : Nat) : bit (a ||| b) k = (bit a k || bit b k) := by
  simp [bit]

theorem bit_and (a b : UInt8) (k : Nat) : bit (a &&& b) k = (bit a k && bit b k) := by
  simp [bit]

theorem bit_not {b : UInt8} {k : Nat} (h : k < 8) : bit (~~~b) k = !bit b k := by
  simp [bit, h]

theorem bit_mask {k j : Nat} (hk : k < 8) (hj : j < 8) : bit (mask k) j = decide (j = k) := by
  have all : ∀ k j : Fin 8, bit (mask k) j = decide ((j : Nat) = k) := by decide
  exact all ⟨k, hk⟩ ⟨j, hj⟩

/-- Packing eight pixels keeps each of them. -/
theorem bit_byteOf (f : Nat → Bool) {k : Nat} (h : k < 8) : bit (byteOf f) k = f k := by
  have single : ∀ (c : Bool) (j : Nat), j < 8 → ∀ i, i < 8 →
      bit (cond c (mask j) 0) i = (c && decide (i = j)) := by
    intro c j hj i hi
    cases c
    · simp
    · simp [bit_mask hj hi]
  have masks : mask 0 = 128 ∧ mask 1 = 64 ∧ mask 2 = 32 ∧ mask 3 = 16 ∧ mask 4 = 8 ∧
      mask 5 = 4 ∧ mask 6 = 2 ∧ mask 7 = 1 := by decide
  obtain ⟨h0, h1, h2, h3, h4, h5, h6, h7⟩ := masks
  unfold byteOf
  simp only [← h0, ← h1, ← h2, ← h3, ← h4, ← h5, ← h6, ← h7, bit_or]
  rw [single _ 0 (by omega) _ h, single _ 1 (by omega) _ h, single _ 2 (by omega) _ h,
    single _ 3 (by omega) _ h, single _ 4 (by omega) _ h, single _ 5 (by omega) _ h,
    single _ 6 (by omega) _ h, single _ 7 (by omega) _ h]
  match k, h with
  | 0, _ | 1, _ | 2, _ | 3, _ | 4, _ | 5, _ | 6, _ | 7, _ => simp

/-- Writing one pixel of a byte changes that pixel only. -/
theorem bit_withBit (b : UInt8) {k j : Nat} (value : Bool) (hk : k < 8) (hj : j < 8) :
    bit (withBit b k value) j = if j = k then value else bit b j := by
  cases value
  · simp only [withBit, Bool.false_eq_true, if_false, bit_and, bit_not hj, bit_mask hk hj]
    by_cases h : j = k <;> simp [h]
  · simp only [withBit, if_true, bit_or, bit_mask hk hj]
    by_cases h : j = k <;> simp [h]

/-- Bit `k` of byte `i` is the one of pixel `i % pitch * 8 + k` of row `i / pitch`, in rows
of `pitch` bytes each. -/
theorem index_of_bit (pitch i : Nat) {k : Nat} (hk : k < 8) :
    i / pitch * pitch + (i % pitch * 8 + k) / 8 = i ∧ (i % pitch * 8 + k) % 8 = k := by
  have byte : (i % pitch * 8 + k) / 8 = i % pitch := by omega
  constructor
  · rw [byte, Nat.div_add_mod']
  · omega

/-- Bytes with equal pixels are equal. -/
theorem eq_of_bit_eq {a b : UInt8} (h : ∀ k, k < 8 → bit a k = bit b k) : a = b :=
  UInt8.toBitVec_inj.mp (BitVec.eq_of_getMsbD_eq fun k => by
    intro hk
    exact h k hk)

end Packing

end BitmapFont
