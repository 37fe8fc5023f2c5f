import BitmapFont.Error

/-!
Inclusive ranges of codepoints.

A range may reach beyond the codepoints 0 to 255 on either side; only those
inside count (`CodepointRange.mem_codepoints`), and they are listed in ascending
order (`CodepointRange.codepoints_ascending`).
-/

namespace BitmapFont

/-- The codepoints from `first` to `last`. -/
structure CodepointRange where
  first : Int
  last : Int
  ordered : first ≤ last
deriving DecidableEq

namespace CodepointRange

/-- The range between two bounds, refused if they are reversed. -/
def between (first last : Int) : Except FontError CodepointRange :=
  if ordered : first ≤ last then .ok { first, last, ordered }
  else .error (.argument (.reversedRange first last))

def all : CodepointRange :=
  { first := 0, last := 255, ordered := by decide }

def single (codepoint : UInt8) : CodepointRange :=
  { first := codepoint.toNat, last := codepoint.toNat, ordered := Int.le_refl _ }

def Contains (r : CodepointRange) (codepoint : UInt8) : Prop :=
  r.first ≤ codepoint.toNat ∧ (codepoint.toNat : Int) ≤ r.last

instance (r : CodepointRange) (codepoint : UInt8) : Decidable (r.Contains codepoint) :=
  inferInstanceAs (Decidable (_ ∧ _))

/-- The codepoints of the range, ascending. The bounds are cut to 0 and 255 first. -/
def codepoints (r : CodepointRange) : List UInt8 :=
  let low := max r.first 0
  let high := min r.last 255
  (List.range (high + 1 - low).toNat).map fun i => UInt8.ofNat (low.toNat + i)

/-- Every codepoint between the bounds is listed, and no other. -/
theorem mem_codepoints {r : CodepointRange} {codepoint : UInt8} :
    codepoint ∈ r.codepoints ↔ r.Contains codepoint := by
  have lt := codepoint.toNat_lt
  simp only [codepoints, List.mem_map, List.mem_range, Contains]
  constructor
  · rintro ⟨i, inside, rfl⟩
    rw [UInt8.toNat_ofNat']
    omega
  · intro contained
    refine ⟨codepoint.toNat - (max r.first 0).toNat, by omega, ?_⟩
    apply UInt8.toNat_inj.mp
    rw [UInt8.toNat_ofNat']
    omega

theorem codepoints_ascending (r : CodepointRange) : r.codepoints.Pairwise (· < ·) := by
  refine List.pairwise_map.mpr (List.Pairwise.imp_of_mem ?_ List.pairwise_lt_range)
  intro i j _ inside less
  rw [List.mem_range] at inside
  rw [UInt8.lt_iff_toNat_lt, UInt8.toNat_ofNat', UInt8.toNat_ofNat']
  omega

end CodepointRange

end BitmapFont
