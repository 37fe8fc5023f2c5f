import BitmapFont.Font.Name
import BitmapFont.Sequence

/-!
Fonts.

A font is a header and a list of sequences that is never empty. Operations that
can fail return the changed font only on success, so a failed one leaves nothing
behind.
-/

namespace BitmapFont

/-- The layouts of a font stream. -/
inductive Version where
  /-- The layout without point sizes. -/
  | legacy
  /-- The layout that is written by default. -/
  | current
deriving DecidableEq, Repr

namespace Version

/-- The byte that stands for a layout. -/
def code : Version → UInt8
  | .legacy => 0
  | .current => 1

/-- The layout that a byte stands for. -/
def ofCode? (code : UInt8) : Option Version :=
  if code = 0 then some .legacy else if code = 1 then some .current else none

@[simp] theorem ofCode?_code (v : Version) : ofCode? v.code = some v := by
  cases v <;> rfl

/-- A byte stands for the layout whose code it is. -/
theorem eq_code_of_ofCode? {code : UInt8} {v : Version} (h : ofCode? code = some v) :
    code = v.code := by
  unfold ofCode? at h
  split at h
  · rename_i zero
    cases h
    exact zero
  · split at h
    · rename_i one
      cases h
      exact one
    · cases h

/-- Only the bytes 0 and 1 stand for a layout. -/
theorem ofCode?_eq_none_iff {code : UInt8} : ofCode? code = none ↔ 1 < code.toNat := by
  unfold ofCode?
  split
  · simp_all
  · split
    · simp_all
    · rename_i h0 h1
      simp only [true_iff]
      have ne0 : code.toNat ≠ 0 := fun h => h0 (UInt8.toNat_inj.mp h)
      have ne1 : code.toNat ≠ 1 := fun h => h1 (UInt8.toNat_inj.mp h)
      omega

end Version

structure Font where
  name : FontName
  version : Version
  /-- A reserved header byte, kept as it was read. -/
  flags : UInt8
  sequences : List Sequence
  nonempty : sequences ≠ []
deriving DecidableEq

namespace Font

/-- The sequence that a new font starts with: 16 rows, baseline 12. -/
def initialSequence : Sequence :=
  Sequence.blank 16 12 16 (by decide)

/-- The font with a single, usually imported, sequence. -/
def withSequence (name : String) (sequence : Sequence) : Font where
  name := FontName.cut name
  version := .current
  flags := 0
  sequences := [sequence]
  nonempty := by simp

/-- The font with one empty sequence. -/
def new (name : String) : Font :=
  withSequence name initialSequence

/-- The font that an editing session starts with. -/
def untitled : Font :=
  new "Untitled"

/-- The font with the given sequences, refused if there are none. -/
def ofSequences (name : String) (sequences : List Sequence) : Except FontError Font :=
  if nonempty : sequences = [] then .error (.argument .noSequences)
  else .ok { name := FontName.cut name, version := .current, flags := 0, sequences, nonempty }

/-- The font under another name, refused if the storable part of the name is too
long. -/
def setName (f : Font) (name : String) : Except FontError Font := do
  let name ← FontName.ofText name
  return { f with name }

def sequenceCount (f : Font) : Nat :=
  f.sequences.length

theorem sequenceCount_pos (f : Font) : 0 < f.sequenceCount :=
  List.length_pos_iff.mpr f.nonempty

def sequence? (f : Font) (index : Nat) : Option Sequence :=
  f.sequences[index]?

/-- The font with the sequence at an index replaced; the font itself if it has no
such sequence. -/
def setSequence (f : Font) (index : Nat) (sequence : Sequence) : Font :=
  { f with
    sequences := f.sequences.set index sequence
    nonempty := by simpa using f.nonempty }

def push (f : Font) (sequence : Sequence) : Font :=
  { f with
    sequences := f.sequences ++ [sequence]
    nonempty := by simp }

/-- However many sequences are appended, the index of the first is one of the font. -/
theorem sequenceCount_lt_foldl_push (f : Font) (first : Sequence) (rest : List Sequence) :
    f.sequenceCount < (rest.foldl push (f.push first)).sequenceCount := by
  have grows : ∀ (rest : List Sequence) (g : Font),
      g.sequenceCount ≤ (rest.foldl push g).sequenceCount := by
    intro rest
    induction rest with
    | nil => exact fun g => Nat.le_refl _
    | cons s rest ih =>
        intro g
        refine Nat.le_trans ?_ (ih (g.push s))
        simp [sequenceCount, push]
  refine Nat.lt_of_lt_of_le ?_ (grows rest (f.push first))
  simp [sequenceCount, push]

/-- The font without the sequence at an index, and that sequence. The last
remaining sequence stays. -/
def removeSequence (f : Font) (index : Nat) : Except FontError (Font × Sequence) :=
  if inside : index < f.sequences.length then
    if last : f.sequences.length = 1 then .error .lastSequence
    else
      .ok ({ f with
          sequences := f.sequences.eraseIdx index
          nonempty := by
            have := List.length_eraseIdx_of_lt inside
            intro none
            simp only [none, List.length_nil] at this
            omega },
        f.sequences[index])
  else .error (.argument (.sequenceIndex index f.sequences.length))

theorem removeSequence_of_le {f : Font} {index : Nat} (beyond : f.sequenceCount ≤ index) :
    f.removeSequence index = .error (.argument (.sequenceIndex index f.sequenceCount)) :=
  dif_neg (Nat.not_lt.mpr beyond)

theorem removeSequence_of_single {f : Font} {index : Nat} (inside : index < f.sequenceCount)
    (single : f.sequenceCount = 1) : f.removeSequence index = .error .lastSequence :=
  (dif_pos inside).trans (dif_pos single)

/-- Of several sequences any can be removed. -/
theorem exists_removeSequence {f : Font} {index : Nat} (inside : index < f.sequences.length)
    (several : f.sequenceCount ≠ 1) :
    ∃ nonempty, f.removeSequence index =
      .ok ({ f with sequences := f.sequences.eraseIdx index, nonempty }, f.sequences[index]) :=
  ⟨_, (dif_pos inside).trans (dif_neg several)⟩

/-- The font with another list of sequences, refused if it is empty. -/
def restoreSequences (f : Font) (sequences : List Sequence) : Except FontError Font :=
  if nonempty : sequences = [] then .error (.argument .noSequences)
  else .ok { f with sequences, nonempty }

/-- The first sequence made for a point size. -/
def sequenceForPointSize? (f : Font) (pointSize : UInt8) : Option Sequence :=
  f.sequences.find? fun s => s.pointSize = pointSize

end Font

end BitmapFont
