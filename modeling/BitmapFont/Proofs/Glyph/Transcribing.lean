import BitmapFont.Proofs.Glyph.Representation
import Mathlib.Data.List.GetD

/-!
Glyphs written down and read back.

A glyph can be written down as rows of pixels, or as packed bytes whose rows lie any number
of bytes apart. What a row leaves over of its bytes is not read, whatever it holds. Main
facts:

* `Glyph.fromRows_of_rectangular`, `Glyph.rectangular_of_fromRows`: only rectangles are
  rows of a glyph;
* `Glyph.ext_toRows`: the rows of a glyph tell its size and its pixels;
* `Glyph.fromPacked_eq_iff`: bytes read as a glyph if their bits under its pixels are these;
* `Glyph.storedBit_laidOut`, `Glyph.exists_eq_laidOut`: all bits of a layout, and that there
  are no other bytes of its length that read as the glyph;
* `Glyph.transcripts_read_back`: both ways of writing a glyph down.
-/

namespace BitmapFont

open Packing

/-! ### Rows of one length -/

section Rows
variable {pitch : Nat} {rows : Nat → List UInt8}

theorem length_flatMap_range {n : Nat} (full : ∀ y < n, (rows y).length = pitch) :
    ((List.range n).flatMap rows).length = n * pitch := by
  induction n with
  | zero => simp
  | succ n ih =>
      have front := ih fun y hy => full y (Nat.lt_succ_of_lt hy)
      rw [List.range_succ, List.flatMap_append, List.length_append, front, List.flatMap_singleton,
        full n (Nat.lt_succ_self n), Nat.succ_mul]

/-- Row `y` of rows written one after the other starts `y * pitch` bytes in. -/
theorem getD_flatMap_range {n y k : Nat} (full : ∀ y < n, (rows y).length = pitch) (hy : y < n)
    (hk : k < pitch) :
    ((List.range n).flatMap rows).getD (y * pitch + k) 0 = (rows y).getD k 0 := by
  induction n with
  | zero => exact absurd hy (Nat.not_lt_zero y)
  | succ n ih =>
      have full' : ∀ y < n, (rows y).length = pitch := fun y hy => full y (Nat.lt_succ_of_lt hy)
      have front := length_flatMap_range full'
      rw [List.range_succ, List.flatMap_append, List.flatMap_singleton]
      rcases Nat.lt_succ_iff_lt_or_eq.mp hy with before | rfl
      · have inFront : y * pitch + k < ((List.range n).flatMap rows).length := by
          rw [front]
          calc y * pitch + k < y * pitch + pitch := Nat.add_lt_add_left hk _
            _ = (y + 1) * pitch := (Nat.succ_mul y pitch).symm
            _ ≤ n * pitch := Nat.mul_le_mul_right pitch before
        rw [List.getD_append _ _ _ _ inFront]
        exact ih full' before
      · rw [List.getD_append_right _ _ _ _ (by omega), front, Nat.add_sub_cancel_left]

end Rows

namespace Glyph

/-! ### Rows of pixels -/

/-- As many rows as a height can count, all of one length that a width can count. -/
def Rectangular (rows : List (List Bool)) : Prop :=
  1 ≤ rows.length ∧ rows.length ≤ 255 ∧
    ∃ width, 1 ≤ width ∧ width ≤ 255 ∧ ∀ row ∈ rows, row.length = width

section
variable {g g' : Glyph} {codepoint : UInt8} {rows : List (List Bool)}

theorem length_toRows (g : Glyph) : g.toRows.length = g.height.toNat := by
  rw [toRows, List.length_map, List.length_range]

theorem length_of_mem_toRows {row : List Bool} (mem : row ∈ g.toRows) :
    row.length = g.width.toNat := by
  obtain ⟨y, -, rfl⟩ := List.mem_map.mp mem
  rw [List.length_map, List.length_range]

theorem rectangular_toRows (g : Glyph) : Rectangular g.toRows := by
  have height := g.height.toNat_lt
  have width := g.width.toNat_lt
  rw [Rectangular, length_toRows]
  exact ⟨g.height_pos, by omega, g.width.toNat, g.width_pos, by omega,
    fun row => length_of_mem_toRows⟩

/-- Glyphs of one codepoint with the same rows are equal. -/
theorem ext_toRows (codepoint : g.codepoint = g'.codepoint) (rows : g.toRows = g'.toRows) :
    g = g' := by
  have height : g.height.toNat = g'.height.toNat := by
    rw [← length_toRows, rows, length_toRows]
  have width : g.width.toNat = g'.width.toNat := by
    have pos : 0 < g.toRows.length := by rw [length_toRows]; exact g.height_pos
    obtain ⟨row, mem⟩ := List.exists_mem_of_length_pos pos
    rw [← length_of_mem_toRows mem, length_of_mem_toRows (rows ▸ mem)]
  apply ext_pixels codepoint (UInt8.toNat_inj.mp width) (UInt8.toNat_inj.mp height)
  rintro x y ⟨column, row⟩
  rw [toRows, toRows, ← height, ← width] at rows
  have line := List.map_inj_left.mp rows y (List.mem_range.mpr row)
  exact List.map_inj_left.mp line x (List.mem_range.mpr column)

theorem toRows_fromFn (codepoint width height : UInt8) (f : ℕ → ℕ → Bool) :
    (fromFn codepoint width height f).toRows =
      (List.range (atLeastOne height).toNat).map fun y =>
        (List.range (atLeastOne width).toNat).map fun x => f x y := by
  apply List.map_congr_left
  intro y row
  apply List.map_congr_left
  intro x column
  rw [fromFn_height, List.mem_range] at row
  rw [fromFn_width, List.mem_range] at column
  rw [pixel_fromFn, decide_eq_true column, decide_eq_true row]
  rfl

/-- A rectangle is the table of its entries. -/
theorem map_range_getD {width : ℕ} (equal : ∀ row ∈ rows, row.length = width) :
    ((List.range rows.length).map fun y =>
      (List.range width).map fun x => (rows.getD y []).getD x false) = rows := by
  apply List.ext_getElem
  · rw [List.length_map, List.length_range]
  · intro y _ row
    have length := equal _ (List.getElem_mem row)
    rw [List.getElem_map, List.getElem_range, List.getD_eq_getElem _ _ row]
    apply List.ext_getElem
    · rw [List.length_map, List.length_range, length]
    · intro x _ column
      rw [List.getElem_map, List.getElem_range, List.getD_eq_getElem _ _ column]

theorem getD_picture (rows : List (List Bool)) (x y : ℕ) :
    ((rows.map List.toArray).toArray.getD y #[]).getD x false = (rows.getD y []).getD x false := by
  simp [Array.getD_eq_getD_getElem?, List.getD_eq_getElem?_getD]

/-- A rectangle makes a glyph, which has these rows. -/
theorem fromRows_of_rectangular (codepoint : UInt8) (rectangular : Rectangular rows) :
    ∃ g, fromRows codepoint rows = .ok g ∧ g.codepoint = codepoint ∧ g.toRows = rows := by
  obtain ⟨nonempty, short, width, pos, narrow, equal⟩ := rectangular
  refine ⟨fromFn codepoint (UInt8.ofNat width) (UInt8.ofNat rows.length) fun x y =>
    (rows.getD y []).getD x false, ?_, rfl, ?_⟩
  · cases rows with
    | nil => exact absurd nonempty (by decide)
    | cons first rest =>
        have length : first.length = width := equal first List.mem_cons_self
        have straight : (first :: rest).findIdx? (fun row => row.length != width) = none := by
          rw [List.findIdx?_eq_none_iff]
          intro row mem
          rw [equal row mem, bne_self_eq_false]
        simp only [fromRows, length, straight, getD_picture]
        rw [if_neg (Nat.not_lt.mpr short), if_neg (by omega)]
  · rw [toRows_fromFn, atLeastOne_ofNat pos narrow, atLeastOne_ofNat nonempty short,
      toNat_ofNat_of_le narrow, toNat_ofNat_of_le short, map_range_getD equal]

theorem rectangular_of_fromRows (read : fromRows codepoint rows = .ok g) : Rectangular rows := by
  unfold fromRows at read
  split at read
  · cases read
  · rename_i first rest
    simp only at read
    split at read
    · cases read
    · split at read
      · cases read
      · split at read
        · cases read
        · rename_i tall wide straight
          rw [List.findIdx?_eq_none_iff] at straight
          refine ⟨by simp, by omega, first.length, by omega, by omega, ?_⟩
          intro row mem
          simpa using straight row mem

end

/-! ### Packed bytes -/

/-- The rows of a glyph on `pitch` bytes each. Bits that no pixel takes are those of
`filler`. -/
def laidOut (g : Glyph) (pitch : ℕ) (filler : ℕ → ℕ → Bool) : List UInt8 :=
  (List.range g.height.toNat).flatMap fun y => (List.range pitch).map fun j =>
    byteOf fun k =>
      if 8 * j + k < g.width.toNat then g.pixel (8 * j + k) y else filler (8 * j + k) y

section
variable {g : Glyph} {pitch : ℕ}

theorem length_laidOut (g : Glyph) (pitch : ℕ) (filler : ℕ → ℕ → Bool) :
    (g.laidOut pitch filler).length = g.height.toNat * pitch := by
  apply length_flatMap_range
  intro y _
  rw [List.length_map, List.length_range]

theorem storedBit_toArray (bytes : List UInt8) (i : ℕ) {k : ℕ} (inByte : k < 8) :
    storedBit bytes.toArray i k = bit (bytes.getD i 0) k := by
  rw [storedBit, bit_eq_testBit _ inByte]
  simp [Array.getD_eq_getD_getElem?, List.getD_eq_getElem?_getD]

/-- Every bit of a layout is a pixel or filler, also if more bytes follow. -/
theorem storedBit_laidOut (filler : ℕ → ℕ → Bool) (rest : List UInt8) {x y : ℕ}
    (stored : x < 8 * pitch) (row : y < g.height.toNat) :
    storedBit (g.laidOut pitch filler ++ rest).toArray (y * pitch + x / 8) (x % 8) =
      if x < g.width.toNat then g.pixel x y else filler x y := by
  have inByte : x % 8 < 8 := Nat.mod_lt x (by decide)
  have inRow : x / 8 < pitch := by omega
  have inside : y * pitch + x / 8 < (g.laidOut pitch filler).length := by
    rw [length_laidOut, Nat.mul_comm g.height.toNat]
    exact Grid.index_lt inRow row
  have whole : 8 * (x / 8) + x % 8 = x := Nat.div_add_mod x 8
  rw [storedBit_toArray _ _ inByte, List.getD_append _ _ _ _ inside, laidOut,
    getD_flatMap_range (by simp) row inRow, List.getD_eq_getElem _ _ (by simpa using inRow),
    List.getElem_map, List.getElem_range, bit_byteOf _ inByte, whole]

/-- Bytes of whole rows with the same bits are the same. -/
theorem eq_of_storedBits {height : ℕ} {a b : List UInt8} (lengthA : a.length = height * pitch)
    (lengthB : b.length = height * pitch)
    (bits : ∀ x y, x < 8 * pitch → y < height →
      storedBit a.toArray (y * pitch + x / 8) (x % 8) =
        storedBit b.toArray (y * pitch + x / 8) (x % 8)) : a = b := by
  apply List.ext_getElem (lengthA.trans lengthB.symm)
  intro i insideA insideB
  apply eq_of_bit_eq
  intro k inByte
  have pos : 0 < pitch := Nat.pos_of_ne_zero fun zero => by simp [lengthA, zero] at insideA
  have row : i / pitch < height := by
    rw [Nat.div_lt_iff_lt_mul pos]
    exact lengthA ▸ insideA
  have inRow : i % pitch < pitch := Nat.mod_lt i pos
  have same := bits (i % pitch * 8 + k) (i / pitch) (by omega) row
  obtain ⟨index, column⟩ := index_of_bit pitch i inByte
  rw [index, column, storedBit_toArray _ _ inByte,
    storedBit_toArray _ _ inByte, List.getD_eq_getElem _ _ insideA,
    List.getD_eq_getElem _ _ insideB] at same
  exact same

theorem pixel_fromPacked (codepoint width height : UInt8) (pitch : ℕ) (bytes : Array UInt8)
    (x y : ℕ) : (fromPacked codepoint width height pitch bytes).pixel x y =
      (decide (x < (atLeastOne width).toNat) && decide (y < (atLeastOne height).toNat) &&
        storedBit bytes (y * pitch + x / 8) (x % 8)) := by
  rw [fromPacked, pixel_fromFn, bit_eq_testBit _ (Nat.mod_lt x (by decide)), storedBit]

/-- Bytes read as a glyph if and only if the bits in the places of its pixels are these. -/
theorem fromPacked_eq_iff {bytes : Array UInt8} :
    fromPacked g.codepoint g.width g.height pitch bytes = g ↔
      ∀ x y, x < g.width.toNat → y < g.height.toNat →
        storedBit bytes (y * pitch + x / 8) (x % 8) = g.pixel x y := by
  have read : ∀ x y, x < g.width.toNat → y < g.height.toNat →
      (fromPacked g.codepoint g.width g.height pitch bytes).pixel x y =
        storedBit bytes (y * pitch + x / 8) (x % 8) := by
    intro x y column row
    rw [pixel_fromPacked, atLeastOne_width, atLeastOne_height, decide_eq_true column,
      decide_eq_true row]
    rfl
  constructor
  · intro same x y column row
    rw [← read x y column row, same]
  · intro bits
    apply ext_pixels
    · rfl
    · exact g.atLeastOne_width
    · exact g.atLeastOne_height
    · rintro x y ⟨column, row⟩
      have column' : x < g.width.toNat := g.atLeastOne_width ▸ column
      have row' : y < g.height.toNat := g.atLeastOne_height ▸ row
      rw [read x y column' row', bits x y column' row']

theorem fromPacked_data (g : Glyph) :
    fromPacked g.codepoint g.width g.height g.pitch g.data = g :=
  fromPacked_eq_iff.mpr fun _ _ column row =>
    storedBit_data (Nat.lt_of_lt_of_le column (le_pitchForWidth _)) row

/-- A layout reads as its glyph, whatever the filler is and whatever follows. -/
theorem fromPacked_laidOut (wide : pitchForWidth g.width ≤ pitch) (filler : ℕ → ℕ → Bool)
    (rest : List UInt8) :
    fromPacked g.codepoint g.width g.height pitch (g.laidOut pitch filler ++ rest).toArray = g := by
  apply fromPacked_eq_iff.mpr
  intro x y column row
  have stored : x < 8 * pitch := by
    have := le_pitchForWidth g.width
    omega
  rw [storedBit_laidOut filler rest stored row, if_pos column]

/-- Bytes of whole rows that read as a glyph are a layout of it. -/
theorem exists_eq_laidOut {bytes : List UInt8} (length : bytes.length = g.height.toNat * pitch)
    (read : fromPacked g.codepoint g.width g.height pitch bytes.toArray = g) :
    ∃ filler, bytes = g.laidOut pitch filler := by
  let filler x y := storedBit bytes.toArray (y * pitch + x / 8) (x % 8)
  refine ⟨filler, ?_⟩
  apply eq_of_storedBits length (g.length_laidOut pitch filler)
  intro x y stored row
  have shown := storedBit_laidOut filler [] stored row
  rw [List.append_nil] at shown
  rw [shown]
  split
  · rename_i column
    exact fromPacked_eq_iff.mp read x y column row
  · rfl

/-- Bytes that end early show the pixels that they reach of what longer ones show. -/
theorem pixel_fromPacked_append (codepoint width height : UInt8) (pitch : ℕ)
    (bytes missing : Array UInt8) (x y : ℕ) :
    (fromPacked codepoint width height pitch bytes).pixel x y =
      (decide (y * pitch + x / 8 < bytes.size) &&
        (fromPacked codepoint width height pitch (bytes ++ missing)).pixel x y) := by
  have bits : storedBit bytes (y * pitch + x / 8) (x % 8) =
      (decide (y * pitch + x / 8 < bytes.size) &&
        storedBit (bytes ++ missing) (y * pitch + x / 8) (x % 8)) := by
    unfold storedBit
    by_cases reached : y * pitch + x / 8 < bytes.size
    · simp [Array.getD_eq_getD_getElem?, Array.getElem?_append_left reached, reached]
    · simp [Array.getD_eq_getD_getElem?, reached]
  rw [pixel_fromPacked, pixel_fromPacked, bits, Bool.and_left_comm]

end

/-! ### Both ways -/

/-- Exactly the rectangles of 1 to 255 rows and columns are read as a glyph, which has these
rows, and every glyph is read back from its rows and from its bytes. Rows that lie further
apart read as the same glyph whatever fills the gaps, and nothing else of that length does.
Bytes that end early show clear pixels where they do not reach. -/
theorem transcripts_read_back :
    (∀ codepoint rows, (∃ g, fromRows codepoint rows = .ok g) ↔ Rectangular rows) ∧
    (∀ codepoint rows g, fromRows codepoint rows = .ok g →
      g.codepoint = codepoint ∧ g.toRows = rows) ∧
    (∀ g : Glyph, fromRows g.codepoint g.toRows = .ok g ∧
      fromPacked g.codepoint g.width g.height g.pitch g.data = g) ∧
    (∀ (g : Glyph) (pitch : ℕ), (g.width.toNat + 7) / 8 ≤ pitch →
      (∀ filler rest, fromPacked g.codepoint g.width g.height pitch
        (g.laidOut pitch filler ++ rest).toArray = g) ∧
      ∀ bytes : List UInt8, bytes.length = g.height.toNat * pitch →
        fromPacked g.codepoint g.width g.height pitch bytes.toArray = g →
          ∃ filler, bytes = g.laidOut pitch filler) ∧
    ∀ codepoint width height pitch bytes missing x y,
      (fromPacked codepoint width height pitch bytes).pixel x y =
        (decide (y * pitch + x / 8 < bytes.size) &&
          (fromPacked codepoint width height pitch (bytes ++ missing)).pixel x y) := by
  have own : ∀ codepoint rows g, fromRows codepoint rows = .ok g →
      g.codepoint = codepoint ∧ g.toRows = rows := by
    intro codepoint rows g read
    obtain ⟨g', read', same⟩ := fromRows_of_rectangular codepoint (rectangular_of_fromRows read)
    cases read.symm.trans read'
    exact same
  refine ⟨?_, own, ?_, ?_, pixel_fromPacked_append⟩
  · intro codepoint rows
    constructor
    · rintro ⟨g, read⟩
      exact rectangular_of_fromRows read
    · intro rectangular
      obtain ⟨g, read, -⟩ := fromRows_of_rectangular codepoint rectangular
      exact ⟨g, read⟩
  · intro g
    obtain ⟨g', read, codepoint, rows⟩ := fromRows_of_rectangular g.codepoint g.rectangular_toRows
    exact ⟨ext_toRows codepoint rows ▸ read, g.fromPacked_data⟩
  · intro g pitch wide
    exact ⟨fromPacked_laidOut wide, fun bytes => exists_eq_laidOut⟩

/-- The first pixel of its first row and the last of its second, which needs a second byte. -/
def corners : Glyph :=
  fromFn 1 9 2 fun x y => x == 8 * y

theorem transcripts_read_back_corners :
    fromRows 1 [[true, false, false, false, false, false, false, false, false],
      [false, false, false, false, false, false, false, false, true]] = .ok corners ∧
    corners.toRows = [[true, false, false, false, false, false, false, false, false],
      [false, false, false, false, false, false, false, false, true]] ∧
    (corners.width.toNat + 7) / 8 ≤ 3 ∧
    corners.laidOut 3 (fun _ _ => true) = [0x80, 0x7F, 0xFF, 0x00, 0xFF, 0xFF] ∧
    fromPacked 1 9 2 3 #[0x80, 0x7F, 0xFF, 0x00, 0xFF, 0xFF, 0xFF] = corners ∧
    ∃ filler, [0x80, 0x55, 0x00, 0x00, 0xD5, 0x01] = corners.laidOut 3 filler := by
  obtain ⟨-, own, -, layouts, -⟩ := transcripts_read_back
  have read : fromRows 1 [[true, false, false, false, false, false, false, false, false],
      [false, false, false, false, false, false, false, false, true]] = .ok corners := by
    decide +kernel
  have wide : (corners.width.toNat + 7) / 8 ≤ 3 := by decide
  have laid : corners.laidOut 3 (fun _ _ => true) = [0x80, 0x7F, 0xFF, 0x00, 0xFF, 0xFF] := by
    decide +kernel
  obtain ⟨filled, only⟩ := layouts corners 3 wide
  have followed := filled (fun _ _ => true) [0xFF]
  rw [laid] at followed
  exact ⟨read, (own _ _ _ read).2, wide, laid, followed,
    only _ (by decide) (by decide +kernel)⟩

end Glyph

end BitmapFont
