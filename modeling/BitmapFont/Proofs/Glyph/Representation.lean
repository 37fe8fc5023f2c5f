import BitmapFont.Glyph.Basic
import Mathlib.Algebra.BigOperators.Group.Finset.Sigma
import Mathlib.Algebra.BigOperators.Intervals

/-!
Bytes and pixels of a glyph.

Some queries of a glyph look at whole bytes and some at single pixels. They agree
since the bits beyond the width are clear: `Glyph.address` leads from a bit of the
packed bytes back to its pixel. Main results:

* `Glyph.countPixels_eq_card`: counting the bits of the bytes counts the ink;
* `Glyph.fromFn_eq_written`: a built glyph is what writing its pixels one after the
  other leaves of a blank one;
* `Glyph.bytes_agree_with_pixels`: every query says of the bytes what it says of the
  pixels, and the pixels determine the glyph.
-/

namespace BitmapFont

open Packing

namespace Glyph

/-- The positions of the set pixels. -/
def ink (g : Glyph) : Finset (ℕ × ℕ) :=
  (Finset.range g.width.toNat ×ˢ Finset.range g.height.toNat).filter fun p =>
    g.pixel p.1 p.2 = true

theorem mem_ink {g : Glyph} {x y : ℕ} : (x, y) ∈ g.ink ↔ g.pixel x y = true := by
  simp only [ink, Finset.mem_filter, Finset.mem_product, Finset.mem_range, and_iff_right_iff_imp]
  exact inBounds_of_pixel

/-! ### From bits to pixels -/

section
variable {g : Glyph}

theorem index_lt_size {x y : ℕ} (stored : x < 8 * g.pitch) (row : y < g.height.toNat) :
    y * g.pitch + x / 8 < g.data.size := by
  rw [g.size_data]
  exact Grid.index_lt (by omega) row

/-- The pixel that bit `k` of byte `i` stands for. -/
structure Address (g : Glyph) (i k x y : ℕ) : Prop where
  stored : x < 8 * g.pitch
  row : y < g.height.toNat
  index : y * g.pitch + x / 8 = i
  column : x % 8 = k

theorem address {i k : ℕ} (inside : i < g.data.size) (bit : k < 8) :
    g.Address i k (i % g.pitch * 8 + k) (i / g.pitch) where
  stored := by
    have := Nat.mod_lt i g.pitch_pos
    omega
  row := Nat.div_lt_of_lt_mul (g.size_data ▸ inside)
  index := (index_of_bit g.pitch i bit).1
  column := (index_of_bit g.pitch i bit).2

theorem Address.bit_eq {i k x y : ℕ} (address : g.Address i k x y) :
    bit (g.data.getD i 0) k = g.pixel x y := by
  rw [← address.index, ← address.column]
  exact g.bit_data address.stored address.row

/-- Bytes and bits in their order lead to pixels row by row. -/
theorem position_of_index {x : ℕ} (stored : x < 8 * g.pitch) (y : ℕ) :
    (y * g.pitch + x / 8) % g.pitch * 8 + x % 8 = x ∧ (y * g.pitch + x / 8) / g.pitch = y := by
  have inRow : x / 8 < g.pitch := by omega
  constructor
  · rw [Nat.mul_add_mod_of_lt inRow]
    omega
  · exact Grid.index_div inRow

theorem byte_eq_zero_iff {i : ℕ} (inside : i < g.data.size) :
    g.data.getD i 0 = 0 ↔ ∀ k < 8, g.pixel (i % g.pitch * 8 + k) (i / g.pitch) = false := by
  constructor
  · intro zero k bit
    rw [← (address inside bit).bit_eq, zero, bit_zero]
  · intro clear
    apply eq_of_bit_eq
    intro k bit
    rw [(address inside bit).bit_eq, clear k bit, bit_zero]

end

/-! ### Counting -/

theorem bitCount_eq_card (b : UInt8) :
    bitCount b = ((Finset.range 8).filter fun k => bit b k = true).card := by
  have same : (List.range 8).filter (bit b) =
      (List.range 8).filter fun k => decide (bit b k = true) := by simp
  rw [bitCount, List.countP_eq_length_filter, same]
  rfl

/-- Adding up over a list is adding up over its indices. -/
theorem foldl_add_eq_sum (f : UInt8 → ℕ) (bytes : List UInt8) :
    bytes.foldl (fun count b => count + f b) 0 =
      ∑ i ∈ Finset.range bytes.length, f (bytes.getD i 0) := by
  induction bytes using List.reverseRecOn with
  | nil => rfl
  | append_singleton bytes b ih =>
      have before : ∀ i ∈ Finset.range bytes.length,
          f ((bytes ++ [b]).getD i 0) = f (bytes.getD i 0) := by
        intro i inside
        rw [List.getD_eq_getElem?_getD, List.getElem?_append_left (Finset.mem_range.mp inside),
          List.getD_eq_getElem?_getD]
      rw [List.foldl_append, ih, List.length_append, List.length_singleton,
        Finset.sum_range_succ, Finset.sum_congr rfl before]
      simp

/-- The set bits of the bytes are the ink. -/
theorem card_bits (g : Glyph) :
    ((Finset.range g.data.size ×ˢ Finset.range 8).filter fun p =>
      bit (g.data.getD p.1 0) p.2 = true).card = g.ink.card := by
  apply Finset.card_nbij' (fun p => (p.1 % g.pitch * 8 + p.2, p.1 / g.pitch))
    (fun p => (p.2 * g.pitch + p.1 / 8, p.1 % 8))
  · rintro ⟨i, k⟩ set
    simp only [Finset.coe_filter, Finset.mem_product, Finset.mem_range, Set.mem_ofPred_eq] at set
    obtain ⟨⟨inside, bit⟩, set⟩ := set
    rw [Finset.mem_coe, mem_ink, ← (address inside bit).bit_eq]
    exact set
  · rintro ⟨x, y⟩ set
    rw [Finset.mem_coe, mem_ink] at set
    have inside := inBounds_of_pixel set
    have stored : x < 8 * g.pitch := Nat.lt_of_lt_of_le inside.1 (le_pitchForWidth _)
    simp only [Finset.coe_filter, Finset.mem_product, Finset.mem_range, Set.mem_ofPred_eq]
    refine ⟨⟨index_lt_size stored inside.2, Nat.mod_lt _ (by decide)⟩, ?_⟩
    rw [g.bit_data stored inside.2]
    exact set
  · rintro ⟨i, k⟩ set
    simp only [Finset.coe_filter, Finset.mem_product, Finset.mem_range, Set.mem_ofPred_eq] at set
    have at_pixel := address set.1.1 set.1.2
    exact Prod.ext at_pixel.index at_pixel.column
  · rintro ⟨x, y⟩ set
    rw [Finset.mem_coe, mem_ink] at set
    have stored := Nat.lt_of_lt_of_le (inBounds_of_pixel set).1 (le_pitchForWidth _)
    have position := position_of_index stored y
    exact Prod.ext position.1 position.2

/-- Counting bits byte by byte counts the ink. -/
theorem countPixels_eq_card (g : Glyph) : g.countPixels = g.ink.card := by
  rw [← card_bits, Finset.card_filter, Finset.sum_product, countPixels, ← Array.foldl_toList,
    foldl_add_eq_sum, Array.length_toList]
  apply Finset.sum_congr rfl
  intro i inside
  rw [bitCount_eq_card, Finset.card_filter]
  simp [Array.getD_eq_getD_getElem?, List.getD_eq_getElem?_getD]

/-! ### Whole bytes -/

theorem all_zero_iff (bytes : Array UInt8) :
    bytes.all (· == 0) = true ↔ ∀ i < bytes.size, bytes.getD i 0 = 0 := by
  simp only [Array.all_eq_true, beq_iff_eq]
  constructor
  · intro zero i inside
    simpa [Array.getD, inside] using zero i inside
  · intro zero i inside
    simpa [Array.getD, inside] using zero i inside

theorem byte_ne_zero {g : Glyph} {x y : ℕ} (set : g.pixel x y = true) :
    g.data.getD (y * g.pitch + x / 8) 0 ≠ 0 := by
  have inside := inBounds_of_pixel set
  intro zero
  rw [← g.bit_data (Nat.lt_of_lt_of_le inside.1 (le_pitchForWidth _)) inside.2, zero,
    bit_zero] at set
  cases set

theorem isEmpty_iff (g : Glyph) : g.isEmpty = true ↔ ∀ x y, g.pixel x y = false := by
  rw [isEmpty, all_zero_iff]
  constructor
  · intro zero x y
    apply Bool.eq_false_iff.mpr
    intro set
    have inside := inBounds_of_pixel set
    have stored : x < 8 * g.pitch := Nat.lt_of_lt_of_le inside.1 (le_pitchForWidth _)
    exact byte_ne_zero set (zero _ (index_lt_size stored inside.2))
  · intro clear i inside
    exact (byte_eq_zero_iff inside).mpr fun k _ => clear _ _

theorem size_rowBytes {g : Glyph} {y : ℕ} (row : y < g.height.toNat) :
    (g.rowBytes y).size = g.pitch := by
  have last : (y + 1) * g.pitch ≤ g.data.size := by
    rw [g.size_data]
    change _ ≤ g.pitch * g.height.toNat
    rw [Nat.mul_comm g.pitch]
    exact Nat.mul_le_mul_right _ row
  rw [rowBytes, Array.size_extract, Nat.min_eq_left last, Nat.add_mul, Nat.one_mul,
    Nat.add_sub_cancel_left]

theorem rowBytes_of_le {g : Glyph} {y : ℕ} (below : g.height.toNat ≤ y) : g.rowBytes y = #[] := by
  have first : g.data.size ≤ y * g.pitch := by
    rw [g.size_data]
    change g.pitch * g.height.toNat ≤ _
    rw [Nat.mul_comm g.pitch]
    exact Nat.mul_le_mul_right _ below
  apply Array.eq_empty_of_size_eq_zero
  rw [rowBytes, Array.size_extract]
  omega

theorem byte_index_lt_size {g : Glyph} {y j : ℕ} (row : y < g.height.toNat) (inside : j < g.pitch) :
    y * g.pitch + j < g.data.size := by
  have index := index_lt_size (g := g) (x := 8 * j) (by omega) row
  rwa [Nat.mul_div_cancel_left j (by decide)] at index

/-- The bytes of a row stand where the row starts. -/
theorem getD_rowBytes {g : Glyph} {y j : ℕ} (row : y < g.height.toNat) (inside : j < g.pitch) :
    (g.rowBytes y).getD j 0 = g.data.getD (y * g.pitch + j) 0 := by
  have size : j < (g.rowBytes y).size := by rwa [size_rowBytes row]
  have index := byte_index_lt_size row inside
  have element : (g.rowBytes y)[j] = g.data[y * g.pitch + j] := Array.getElem_extract ..
  simpa [Array.getD, size, index] using element

theorem isRowEmpty_iff (g : Glyph) (y : ℕ) :
    g.isRowEmpty y = true ↔ ∀ x, g.pixel x y = false := by
  by_cases row : y < g.height.toNat
  · rw [isRowEmpty, all_zero_iff, size_rowBytes row]
    constructor
    · intro zero x
      apply Bool.eq_false_iff.mpr
      intro set
      have stored : x < 8 * g.pitch :=
        Nat.lt_of_lt_of_le (inBounds_of_pixel set).1 (le_pitchForWidth _)
      have inside : x / 8 < g.pitch := by omega
      exact byte_ne_zero set ((getD_rowBytes row inside).symm.trans (zero _ inside))
    · intro clear j inside
      rw [getD_rowBytes row inside]
      apply (byte_eq_zero_iff (byte_index_lt_size row inside)).mpr
      intro k bit
      have position := position_of_index (g := g) (x := 8 * j) (by omega) y
      rw [Nat.mul_div_cancel_left j (by decide)] at position
      rw [position.2]
      exact clear _
  · have below := Nat.not_lt.mp row
    rw [isRowEmpty, rowBytes_of_le below]
    exact ⟨fun _ _ => pixel_of_le_y below, fun _ => Array.all_empty⟩

/-! ### Writing pixel by pixel -/

/-- All positions of a bitmap, row by row. -/
def scan (width height : ℕ) : List (ℕ × ℕ) :=
  (List.range height).flatMap fun y => (List.range width).map fun x => (x, y)

theorem mem_scan {width height x y : ℕ} : (x, y) ∈ scan width height ↔ x < width ∧ y < height := by
  simp only [scan, List.mem_flatMap, List.mem_map, List.mem_range, Prod.mk.injEq]
  constructor
  · rintro ⟨y', row, x', column, rfl, rfl⟩
    exact ⟨column, row⟩
  · rintro ⟨column, row⟩
    exact ⟨y, row, x, column, rfl, rfl⟩

/-- The glyph with a pixel set if the picture `f` sets it. -/
def write (f : ℕ → ℕ → Bool) (g : Glyph) (p : ℕ × ℕ) : Glyph :=
  if f p.1 p.2 then g.setPixel p.1 p.2 true else g

/-- The picture `f` written to a blank glyph, one pixel after the other. -/
def written (codepoint width height : UInt8) (f : ℕ → ℕ → Bool) : Glyph :=
  (scan (atLeastOne width).toNat (atLeastOne height).toNat).foldl (write f)
    (blank codepoint width height)

/-- What pixels written into a glyph leave as they were. -/
structure SameFrame (g g' : Glyph) : Prop where
  codepoint : g'.codepoint = g.codepoint
  width : g'.width = g.width
  height : g'.height = g.height

section
variable {f : ℕ → ℕ → Bool}

theorem sameFrame_write (f : ℕ → ℕ → Bool) (g : Glyph) (p : ℕ × ℕ) : g.SameFrame (write f g p) := by
  unfold write
  split
  · exact ⟨setPixel_codepoint .., setPixel_width .., setPixel_height ..⟩
  · exact ⟨rfl, rfl, rfl⟩

theorem pixel_write (f : ℕ → ℕ → Bool) (g : Glyph) (p : ℕ × ℕ) {x y : ℕ} (inside : g.InBounds x y) :
    (write f g p).pixel x y = (g.pixel x y || (decide ((x, y) = p) && f x y)) := by
  obtain ⟨column, row⟩ := p
  by_cases same : (x, y) = (column, row)
  · cases same
    unfold write
    cases set : f x y with
    | false => simp
    | true => simp [pixel_setPixel true inside]
  · have other : ¬(x = column ∧ y = row) := fun h => same (Prod.ext h.1 h.2)
    rw [decide_eq_false same, Bool.false_and, Bool.or_false]
    unfold write
    split
    · by_cases target : g.InBounds column row
      · rw [pixel_setPixel true target, if_neg other]
      · rw [setPixel_of_not_inBounds true target]
    · rfl

/-- Of the pixels inside the bitmap those are set that were or that are written. -/
theorem foldl_write (positions : List (ℕ × ℕ)) (g : Glyph) :
    g.SameFrame (positions.foldl (write f) g) ∧
      ∀ x y, g.InBounds x y → (positions.foldl (write f) g).pixel x y =
        (g.pixel x y || (decide ((x, y) ∈ positions) && f x y)) := by
  induction positions generalizing g with
  | nil => exact ⟨⟨rfl, rfl, rfl⟩, by simp⟩
  | cons p rest ih =>
      have first := sameFrame_write f g p
      obtain ⟨frame, pixels⟩ := ih (write f g p)
      refine ⟨⟨frame.codepoint.trans first.codepoint, frame.width.trans first.width,
        frame.height.trans first.height⟩, ?_⟩
      intro x y inside
      have inside' : (write f g p).InBounds x y := by
        unfold InBounds
        rw [first.width, first.height]
        exact inside
      rw [List.foldl_cons, pixels x y inside', pixel_write f g p inside]
      simp only [List.mem_cons, Bool.decide_or]
      cases decide ((x, y) = p) <;> cases decide ((x, y) ∈ rest) <;> simp

end

theorem sameFrame_written (codepoint width height : UInt8) (f : ℕ → ℕ → Bool) :
    (blank codepoint width height).SameFrame (written codepoint width height f) :=
  (foldl_write _ _).1

theorem pixel_written {codepoint width height : UInt8} (f : ℕ → ℕ → Bool) {x y : ℕ}
    (column : x < (atLeastOne width).toNat) (row : y < (atLeastOne height).toNat) :
    (written codepoint width height f).pixel x y = f x y := by
  have inside : (blank codepoint width height).InBounds x y := ⟨column, row⟩
  have pixel := (foldl_write (f := f) (scan (atLeastOne width).toNat (atLeastOne height).toNat)
    (blank codepoint width height)).2 x y inside
  have scanned : (x, y) ∈ scan (atLeastOne width).toNat (atLeastOne height).toNat :=
    mem_scan.mpr ⟨column, row⟩
  rw [pixel_blank, decide_eq_true scanned, Bool.true_and, Bool.false_or] at pixel
  exact pixel

/-- A built glyph is its picture written to a blank one. -/
theorem fromFn_eq_written (codepoint width height : UInt8) (f : ℕ → ℕ → Bool) :
    fromFn codepoint width height f = written codepoint width height f := by
  have frame := sameFrame_written codepoint width height f
  apply ext_pixels
  · rw [frame.codepoint]
    rfl
  · rw [frame.width]
    rfl
  · rw [frame.height]
    rfl
  · rintro x y ⟨column, row⟩
    rw [fromFn_width] at column
    rw [fromFn_height] at row
    rw [pixel_written f column row, pixel_fromFn, decide_eq_true column, decide_eq_true row]
    rfl

/-! ### Agreement -/

/-- Bit `k` of byte `i` of some bytes, counted from the most significant. -/
def storedBit (bytes : Array UInt8) (i k : ℕ) : Bool :=
  (bytes.getD i 0).toNat.testBit (7 - k)

/-- What the bytes of a glyph and the queries about it say is what its pixels say. -/
structure BytesAgree (g : Glyph) : Prop where
  width_pos : 1 ≤ g.width.toNat
  height_pos : 1 ≤ g.height.toNat
  size : g.data.size = (g.width.toNat + 7) / 8 * g.height.toNat
  stored : ∀ x y, x < g.width.toNat → y < g.height.toNat →
    storedBit g.data (y * ((g.width.toNat + 7) / 8) + x / 8) (x % 8) = g.pixel x y
  padding : ∀ x y, g.width.toNat ≤ x → x < 8 * ((g.width.toNat + 7) / 8) → y < g.height.toNat →
    storedBit g.data (y * ((g.width.toNat + 7) / 8) + x / 8) (x % 8) = false
  count : g.countPixels = {p ∈ Finset.range g.width.toNat ×ˢ Finset.range g.height.toNat |
    g.pixel p.1 p.2 = true}.card
  empty : g.isEmpty = true ↔ ∀ x y, x < g.width.toNat → y < g.height.toNat → g.pixel x y = false
  rowEmpty : ∀ y < g.height.toNat,
    (g.isRowEmpty y = true ↔ ∀ x < g.width.toNat, g.pixel x y = false)
  columnEmpty : ∀ x, g.isColumnEmpty x = true ↔ ∀ y < g.height.toNat, g.pixel x y = false
  row : ∀ y < g.height.toNat, (g.rowBytes y).size = (g.width.toNat + 7) / 8 ∧
    ∀ x < 8 * ((g.width.toNat + 7) / 8), storedBit (g.rowBytes y) (x / 8) (x % 8) = g.pixel x y
  noRow : ∀ y, g.height.toNat ≤ y → g.rowBytes y = #[]

theorem storedBit_data {g : Glyph} {x y : ℕ} (stored : x < 8 * g.pitch) (row : y < g.height.toNat) :
    storedBit g.data (y * g.pitch + x / 8) (x % 8) = g.pixel x y := by
  rw [storedBit, ← bit_eq_testBit _ (Nat.mod_lt x (by decide))]
  exact g.bit_data stored row

theorem bytesAgree (g : Glyph) : g.BytesAgree where
  width_pos := g.width_pos
  height_pos := g.height_pos
  size := g.size_data
  stored := by
    intro x y column row
    exact storedBit_data (Nat.lt_of_lt_of_le column (le_pitchForWidth _)) row
  padding := by
    intro x y beyond stored row
    exact (storedBit_data stored row).trans (pixel_of_le_x beyond)
  count := g.countPixels_eq_card
  empty := by
    rw [isEmpty_iff]
    constructor
    · intro clear x y _ _
      exact clear x y
    · intro clear x y
      apply Bool.eq_false_iff.mpr
      intro set
      have inside := inBounds_of_pixel set
      rw [clear x y inside.1 inside.2] at set
      cases set
  rowEmpty := by
    intro y row
    rw [isRowEmpty_iff]
    constructor
    · intro clear x _
      exact clear x
    · intro clear x
      by_cases column : x < g.width.toNat
      · exact clear x column
      · exact pixel_of_le_x (Nat.not_lt.mp column)
  columnEmpty := by
    intro x
    simp only [isColumnEmpty, List.all_eq_true, List.mem_range, Bool.not_eq_true']
  row := by
    intro y row
    refine ⟨size_rowBytes row, ?_⟩
    intro x stored
    have inside : x / 8 < g.pitch := by
      change x < 8 * g.pitch at stored
      omega
    rw [← storedBit_data stored row, storedBit, getD_rowBytes row inside, storedBit]
  noRow := by
    intro y below
    exact rowBytes_of_le below

/-- The bytes of every glyph say what its pixels say, and two glyphs are equal if
and only if they have one codepoint, one size and the same pixels. A picture and its
pixels written one after the other make the same glyph, and writing one pixel changes
that bit of the bytes only, if it lies inside the bitmap. -/
theorem bytes_agree_with_pixels :
    (∀ g : Glyph, g.BytesAgree) ∧
    (∀ g g' : Glyph, g = g' ↔ g.codepoint = g'.codepoint ∧ g.width = g'.width ∧
      g.height = g'.height ∧
      ∀ x y, x < g.width.toNat → y < g.height.toNat → g.pixel x y = g'.pixel x y) ∧
    (∀ codepoint width height f,
      fromFn codepoint width height f = written codepoint width height f) ∧
    ∀ (g : Glyph) (x y : ℕ) (value : Bool) (u v : ℕ), u < 8 * g.pitch → v < g.height.toNat →
      storedBit (g.setPixel x y value).data (v * g.pitch + u / 8) (u % 8) =
        if (u, v) = (x, y) ∧ x < g.width.toNat then value
        else storedBit g.data (v * g.pitch + u / 8) (u % 8) := by
  refine ⟨bytesAgree, ?_, fromFn_eq_written, ?_⟩
  · intro g g'
    constructor
    · rintro rfl
      exact ⟨rfl, rfl, rfl, fun _ _ _ _ => rfl⟩
    · rintro ⟨codepoint, width, height, pixels⟩
      exact ext_pixels codepoint width height fun x y inside => pixels x y inside.1 inside.2
  · intro g x y value u v stored row
    have frame : (g.setPixel x y value).pitch = g.pitch := by rw [pitch, setPixel_width, pitch]
    have row' : v < (g.setPixel x y value).height.toNat := by rwa [setPixel_height]
    have stored' : u < 8 * (g.setPixel x y value).pitch := by rwa [frame]
    have changed := storedBit_data stored' row'
    rw [frame] at changed
    rw [changed, storedBit_data stored row]
    by_cases target : g.InBounds x y
    · simp only [pixel_setPixel value target, Prod.mk.injEq, target.1, and_true]
    · rw [setPixel_of_not_inBounds value target, if_neg]
      rintro ⟨same, column⟩
      cases same
      exact target ⟨column, row⟩

example : (fromFn 65 10 1 fun x _ => x == 0 || x == 9).data = #[128, 64] := by decide

end Glyph

end BitmapFont
