import BitmapFont.Error

/-!
Names that fit the font header.

The header keeps a name of at most 28 ASCII characters, none of them NUL.
Characters that cannot be stored are dropped from a text first. A text whose
storable part is too long is either cut (`FontName.cut`) or refused
(`FontName.ofText`); both agree on every text that fits (`cut_eq_of_ofText`).
-/

namespace BitmapFont

/-- Longest name that the font header holds. -/
def maxNameLength : Nat := 28

/-- Whether a character can stand in a font name. -/
def Storable (c : Char) : Prop :=
  0 < c.toNat ∧ c.toNat < 128

instance (c : Char) : Decidable (Storable c) :=
  inferInstanceAs (Decidable (_ ∧ _))

/-- The characters of a text that can stand in a font name. -/
def storablePart (text : List Char) : List Char :=
  text.filter fun c => decide (Storable c)

theorem storable_of_mem_storablePart {text : List Char} {c : Char} (h : c ∈ storablePart text) :
    Storable c := by
  simpa using (List.mem_filter.mp h).2

/-- Dropping twice is dropping once. -/
theorem storablePart_of_storable {text : List Char} (h : ∀ c ∈ text, Storable c) :
    storablePart text = text :=
  List.filter_eq_self.mpr fun c hc => by simpa using h c hc

/-- A name as the font header stores it. -/
structure FontName where
  chars : List Char
  storable : ∀ c ∈ chars, Storable c
  length_le : chars.length ≤ maxNameLength
deriving DecidableEq

namespace FontName

def text (name : FontName) : String :=
  String.ofList name.chars

/-- The storable part of a text, cut to the header field. -/
def ofChars (chars : List Char) : FontName where
  chars := (storablePart chars).take maxNameLength
  storable := fun _ hc => storable_of_mem_storablePart (List.mem_of_mem_take hc)
  length_le := List.length_take_le ..

/-- The storable part of a text, cut to the header field. -/
def cut (text : String) : FontName :=
  ofChars text.toList

/-- The storable part of a text, refused if it is longer than the header
field. -/
def ofText (text : String) : Except FontError FontName :=
  let chars := storablePart text.toList
  if fits : chars.length ≤ maxNameLength then
    .ok { chars, storable := fun _ => storable_of_mem_storablePart, length_le := fits }
  else .error (.argument (.nameTooLong (String.ofList chars) maxNameLength))

/-- The name in a header field: its bytes up to the first NUL, those that are no
ASCII dropped. -/
def ofField (field : List UInt8) : FontName :=
  ofChars (((field.takeWhile (· != 0)).filter (· < 128)).map fun b => Char.ofNat b.toNat)

/-- The name in UTF-8. -/
def bytes (name : FontName) : List UInt8 :=
  name.chars.flatMap String.utf8EncodeChar

/-- Bytes written over the start of a field, as far as it reaches. -/
def overwrite : (field bytes : List UInt8) → List UInt8
  | _ :: field, byte :: bytes => byte :: overwrite field bytes
  | field, _ => field

/-- The header field of the name: its ASCII bytes written over NULs. -/
def field (name : FontName) : List UInt8 :=
  overwrite (List.replicate maxNameLength 0) (name.bytes.filter (· < 128))

/-- A character that can stand in a name is one byte. -/
theorem bytes_eq (name : FontName) : name.bytes = name.chars.map fun c => UInt8.ofNat c.toNat := by
  have single : name.chars.map String.utf8EncodeChar =
      name.chars.map fun c => [UInt8.ofNat c.toNat] :=
    List.map_congr_left fun c mem => if_pos (Nat.le_of_lt_succ (name.storable c mem).2)
  rw [bytes, List.flatMap_def, single, ← List.flatMap_def, ← List.map_eq_flatMap]

theorem toNat_ofNat_of_storable {c : Char} (storable : Storable c) :
    (UInt8.ofNat c.toNat).toNat = c.toNat := by
  rw [UInt8.toNat_ofNat', Nat.mod_eq_of_lt (Nat.lt_trans storable.2 (by decide))]

/-- The bytes of a name are ASCII, and none of them is NUL. -/
theorem mem_bytes {name : FontName} {b : UInt8} (mem : b ∈ name.bytes) : b ≠ 0 ∧ b < 128 := by
  rw [bytes_eq] at mem
  obtain ⟨c, listed, rfl⟩ := List.mem_map.mp mem
  have storable := name.storable c listed
  have number := toNat_ofNat_of_storable storable
  constructor
  · intro zero
    rw [zero] at number
    exact absurd number (Nat.ne_of_lt storable.1)
  · rw [UInt8.lt_iff_toNat_lt, number]
    exact storable.2

/-- Bytes that fit are followed by what they leave of a field of NULs. -/
theorem overwrite_replicate {bytes : List UInt8} {n : Nat} (fits : bytes.length ≤ n) :
    overwrite (List.replicate n 0) bytes = bytes ++ List.replicate (n - bytes.length) 0 := by
  induction bytes generalizing n with
  | nil => cases n <;> rfl
  | cons byte rest ih =>
      cases n with
      | zero => exact absurd fits (Nat.not_succ_le_zero _)
      | succ n =>
          rw [List.replicate_succ, overwrite, ih (Nat.le_of_succ_le_succ fits), List.length_cons,
            Nat.succ_sub_succ]
          rfl

/-- No byte of a name is left out of its field, which is filled up with NULs. -/
theorem field_eq (name : FontName) :
    name.field = name.bytes ++ List.replicate (maxNameLength - name.chars.length) 0 := by
  have length : name.bytes.length = name.chars.length := by
    rw [bytes_eq, List.length_map]
  have ascii : name.bytes.filter (· < 128) = name.bytes :=
    List.filter_eq_self.mpr fun b mem => decide_eq_true (mem_bytes mem).2
  have fits : name.bytes.length ≤ maxNameLength := by
    rw [length]
    exact name.length_le
  rw [field, ascii, overwrite_replicate fits, length]

@[simp] theorem length_field (name : FontName) : name.field.length = maxNameLength := by
  have := name.length_le
  simp only [field_eq, bytes_eq, List.length_append, List.length_map, List.length_replicate]
  omega

/-- A name is determined by its characters. -/
theorem ext_chars {a b : FontName} (h : a.chars = b.chars) : a = b := by
  cases a; cases b
  simp_all

/-- Cutting the characters of a name gives the name back. -/
theorem ofChars_chars (name : FontName) : ofChars name.chars = name :=
  ext_chars <| by
    change (storablePart name.chars).take maxNameLength = name.chars
    rw [storablePart_of_storable name.storable, List.take_of_length_le name.length_le]

/-- A text that fits is stored the same way by both constructors. -/
theorem cut_eq_of_ofText {text : String} {name : FontName} (h : ofText text = .ok name) :
    cut text = name := by
  unfold ofText at h
  simp only at h
  split at h
  · rename_i fits
    rw [← Except.ok.inj h]
    exact ext_chars (List.take_of_length_le fits)
  · simp at h

end FontName

end BitmapFont
