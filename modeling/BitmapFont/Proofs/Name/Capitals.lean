import BitmapFont.Name.TitleCase
import Mathlib.Data.Nat.Notation

/-!
Capitals in English names.

A title is written in one pass that remembers whether a letter would start a word. In a
text of characters below 128 the place of a character and the one character before it tell
as much. Main facts:

* `titleCaseFrom_append`, `startsWordAfter_append`: all that the pass remembers of a text is
  whether it ended in a letter;
* `titleCaseFrom_eq_zipWith`: the pass as a table, with one entry for every character;
* `map_toLower_titleCase`, `titleCaseFrom_map_toLower`: nothing but the case of letters
  changes, and the case in which they are given does not matter;
* `titleCase_character_by_character`: the title of a text, character by character.
-/

namespace BitmapFont

open Unicode

/-! ### What the pass remembers -/

/-- Whether a letter after `text` starts a word, where `wordStart` tells whether a letter
at its front does. -/
def startsWordAfter (wordStart : Bool) (text : List Char) : Bool :=
  text.foldl (fun _ c => !isAlphabetic c) wordStart

section
variable {wordStart : Bool}

theorem startsWordAfter_append (before : List Char) (c : Char) :
    startsWordAfter wordStart (before ++ [c]) = !isAlphabetic c := by
  rw [startsWordAfter, List.foldl_append]
  rfl

theorem titleCaseFrom_append (before after : List Char) :
    titleCaseFrom wordStart (before ++ after) =
      titleCaseFrom wordStart before ++ titleCaseFrom (startsWordAfter wordStart before) after := by
  induction before generalizing wordStart with
  | nil => rfl
  | cons c rest ih =>
      simp only [List.cons_append, titleCaseFrom, startsWordAfter, List.foldl_cons]
      split
      · rename_i letter
        rw [ih, List.append_assoc, letter]
        rfl
      · rename_i other
        rw [ih, eq_false_of_ne_true other]
        rfl

/-- A character that is no letter parts a text: both sides are written on their own. -/
theorem titleCase_parted {c : Char} (other : isAlphabetic c = false) (before after : List Char) :
    titleCase (before ++ [c] ++ after) = titleCase before ++ [c] ++ titleCase after := by
  have kept : ∀ wordStart, titleCaseFrom wordStart [c] = [c] := by
    intro wordStart
    simp [titleCaseFrom, other]
  rw [titleCase, titleCaseFrom_append, startsWordAfter_append, titleCaseFrom_append, kept, other]
  rfl

end

/-! ### English letters -/

/-- A character at the start of a word or after it. Other characters than letters have one
case only. -/
def cased (wordStart : Bool) (c : Char) : Char :=
  if wordStart then c.toUpper else c.toLower

theorem isAsciiLetter_iff (c : Char) : IsAsciiLetter c ↔ c.isAlpha = true := by
  have upper : c.isUpper = true ↔ 'A' ≤ c ∧ c ≤ 'Z' := decide_eq_true_iff
  have lower : c.isLower = true ↔ 'a' ≤ c ∧ c ≤ 'z' :=
    (Bool.and_eq_true_iff).trans (and_congr decide_eq_true_iff decide_eq_true_iff)
  change _ ↔ (c.isUpper || c.isLower) = true
  rw [Bool.or_eq_true, upper, lower]
  rfl

/-- What holds of the characters with numbers below 128 can be checked number by number. -/
theorem forall_ascii {p : Char → Prop} (all : ∀ n : Fin 128, p (Char.ofNat n)) {c : Char}
    (ascii : c.toNat < 128) : p c := by
  have holds := all ⟨c.toNat, ascii⟩
  rwa [Char.ofNat_toNat] at holds

section
variable {c : Char} (ascii : c.toNat < 128)
include ascii

theorem isAlphabetic_eq_isAlpha : isAlphabetic c = c.isAlpha := by
  rw [isAlphabetic_of_ascii ascii, Bool.eq_iff_iff, decide_eq_true_eq, isAsciiLetter_iff]

theorem isAlpha_toLower : c.toLower.isAlpha = c.isAlpha :=
  forall_ascii (p := fun c => c.toLower.isAlpha = c.isAlpha) (by decide) ascii

variable (wordStart : Bool)

theorem cased_of_not_isAlpha (other : c.isAlpha = false) : cased wordStart c = c :=
  forall_ascii (p := fun c => ∀ wordStart, c.isAlpha = false → cased wordStart c = c)
    (by decide) ascii wordStart other

/-- Both cases of a character below 128 are below 128. -/
theorem toNat_cased_lt : (cased wordStart c).toNat < 128 :=
  forall_ascii (p := fun c => ∀ wordStart, (cased wordStart c).toNat < 128)
    (by decide) ascii wordStart

theorem toLower_cased : (cased wordStart c).toLower = c.toLower :=
  forall_ascii (p := fun c => ∀ wordStart, (cased wordStart c).toLower = c.toLower)
    (by decide) ascii wordStart

theorem cased_toLower : cased wordStart c.toLower = cased wordStart c :=
  forall_ascii (p := fun c => ∀ wordStart, cased wordStart c.toLower = cased wordStart c)
    (by decide) ascii wordStart

end

/-! ### English texts -/

/-- Where in a text letters start words: at its front if `wordStart` tells so, and after
every character that is no letter. -/
def wordStarts (wordStart : Bool) (text : List Char) : List Bool :=
  wordStart :: text.map fun c => !c.isAlpha

variable {wordStart : Bool} {text other : List Char}

/-- A character below 128 becomes one character, and is remembered as a letter or not. -/
theorem titleCaseFrom_cons_of_ascii {c : Char} (ascii : c.toNat < 128) (rest : List Char) :
    titleCaseFrom wordStart (c :: rest) = cased wordStart c :: titleCaseFrom (!c.isAlpha) rest := by
  rw [titleCaseFrom, isAlphabetic_eq_isAlpha ascii]
  cases letter : c.isAlpha with
  | true =>
      rw [if_pos rfl, toUpper_of_ascii ascii, toLower_of_ascii ascii]
      cases wordStart <;> rfl
  | false =>
      rw [cased_of_not_isAlpha ascii wordStart letter]
      rfl

theorem titleCaseFrom_eq_zipWith (ascii : ∀ c ∈ text, c.toNat < 128) :
    titleCaseFrom wordStart text = List.zipWith cased (wordStarts wordStart text) text := by
  induction text generalizing wordStart with
  | nil => rfl
  | cons c rest ih =>
      obtain ⟨first, later⟩ := List.forall_mem_cons.mp ascii
      rw [titleCaseFrom_cons_of_ascii first, ih later]
      rfl

theorem length_titleCase (ascii : ∀ c ∈ text, c.toNat < 128) :
    (titleCase text).length = text.length := by
  rw [titleCase, titleCaseFrom_eq_zipWith ascii, List.length_zipWith, wordStarts, List.length_cons,
    List.length_map]
  exact Nat.min_eq_right (Nat.le_succ _)

theorem getElem_wordStarts {i : ℕ} (inside : i < text.length)
    (inside' : i < (wordStarts true text).length) :
    (wordStarts true text)[i] = true ↔ i = 0 ∨ ¬IsAsciiLetter text[i - 1] := by
  cases i with
  | zero => exact iff_of_true rfl (.inl rfl)
  | succ i => simp [wordStarts, isAsciiLetter_iff]

theorem getElem_titleCase (ascii : ∀ c ∈ text, c.toNat < 128) {i : ℕ} (inside : i < text.length)
    (inside' : i < (titleCase text).length) :
    (titleCase text)[i] =
      cased (decide (i = 0 ∨ ¬IsAsciiLetter text[i - 1])) text[i] := by
  have started : i < (wordStarts true text).length := by
    rw [wordStarts, List.length_cons, List.length_map]
    exact Nat.lt_succ_of_lt inside
  have flag : (wordStarts true text)[i] = decide (i = 0 ∨ ¬IsAsciiLetter text[i - 1]) := by
    rw [Bool.eq_iff_iff, getElem_wordStarts inside started, decide_eq_true_eq]
  simp only [titleCase, titleCaseFrom_eq_zipWith ascii, List.getElem_zipWith, flag]

theorem titleCase_ascii (ascii : ∀ c ∈ text, c.toNat < 128) :
    ∀ c ∈ titleCase text, c.toNat < 128 := by
  intro c mem
  obtain ⟨i, inside', rfl⟩ := List.mem_iff_getElem.mp mem
  have inside : i < text.length := length_titleCase ascii ▸ inside'
  rw [getElem_titleCase ascii inside]
  exact toNat_cased_lt (ascii _ (List.getElem_mem inside)) _

/-- Nothing but the case of letters changes. -/
theorem map_toLower_titleCase (ascii : ∀ c ∈ text, c.toNat < 128) :
    (titleCase text).map Char.toLower = text.map Char.toLower := by
  apply List.ext_getElem
  · rw [List.length_map, List.length_map, length_titleCase ascii]
  · intro i inside' inside
    rw [List.length_map] at inside
    rw [List.getElem_map, List.getElem_map, getElem_titleCase ascii inside,
      toLower_cased (ascii _ (List.getElem_mem inside))]

/-- The case in which letters are given does not matter. -/
theorem titleCaseFrom_map_toLower (ascii : ∀ c ∈ text, c.toNat < 128) :
    titleCaseFrom wordStart (text.map Char.toLower) = titleCaseFrom wordStart text := by
  induction text generalizing wordStart with
  | nil => rfl
  | cons c rest ih =>
      obtain ⟨first, later⟩ := List.forall_mem_cons.mp ascii
      have lower : c.toLower.toNat < 128 := toNat_cased_lt first false
      rw [List.map_cons, titleCaseFrom_cons_of_ascii lower, titleCaseFrom_cons_of_ascii first,
        cased_toLower first, isAlpha_toLower first, ih later]

theorem titleCase_eq_iff (ascii : ∀ c ∈ text, c.toNat < 128) (ascii' : ∀ c ∈ other, c.toNat < 128) :
    titleCase text = titleCase other ↔ text.map Char.toLower = other.map Char.toLower := by
  constructor
  · intro same
    rw [← map_toLower_titleCase ascii, same, map_toLower_titleCase ascii']
  · intro same
    rw [titleCase, ← titleCaseFrom_map_toLower ascii, same, titleCaseFrom_map_toLower ascii',
      titleCase]

/-- In a text of characters below 128, a letter becomes a capital where it is the first
character or follows one that is no letter, and a small letter elsewhere; nothing else
changes. So a title is its own title, texts have one title exactly if they differ in case
only, and parts between which there is no letter can be written one by one. -/
theorem titleCase_character_by_character :
    (∀ text : List Char, (∀ c ∈ text, c.toNat < 128) →
      (titleCase text).length = text.length ∧
      (∀ (i : ℕ) (inside : i < text.length), (titleCase text)[i]? = some (
        if ¬IsAsciiLetter text[i] then text[i]
        else if i = 0 ∨ ¬IsAsciiLetter text[i - 1] then text[i].toUpper
        else text[i].toLower)) ∧
      titleCase (titleCase text) = titleCase text ∧
      ∀ other : List Char, (∀ c ∈ other, c.toNat < 128) →
        (titleCase text = titleCase other ↔ text.map Char.toLower = other.map Char.toLower)) ∧
    ∀ (before after : List Char) (c : Char), c.toNat < 128 → ¬IsAsciiLetter c →
      titleCase (before ++ [c] ++ after) = titleCase before ++ [c] ++ titleCase after := by
  constructor
  · intro text ascii
    refine ⟨length_titleCase ascii, ?_, ?_, fun other => titleCase_eq_iff ascii⟩
    · intro i inside
      have inside' : i < (titleCase text).length := by rwa [length_titleCase ascii]
      rw [List.getElem?_eq_getElem inside', getElem_titleCase ascii inside]
      by_cases letter : IsAsciiLetter text[i]
      · simp only [letter, not_true_eq_false, if_false, cased, decide_eq_true_eq]
      · rw [if_pos letter]
        rw [isAsciiLetter_iff, Bool.not_eq_true] at letter
        rw [cased_of_not_isAlpha (ascii _ (List.getElem_mem inside)) _ letter]
    · apply (titleCase_eq_iff (titleCase_ascii ascii) ascii).mpr
      exact map_toLower_titleCase ascii
  · intro before after c ascii other
    apply titleCase_parted
    rw [isAlphabetic_of_ascii ascii]
    exact decide_eq_false other

theorem titleCase_character_by_character_mixed :
    (∀ c ∈ ['8', 'x', 'b', '-', 'm', 'O'], c.toNat < 128) ∧
      (∀ c ∈ ['8', 'X', 'B', '-', 'M', 'o'], c.toNat < 128) ∧ ¬IsAsciiLetter '-' ∧
      (titleCase ['8', 'x', 'b', '-', 'm', 'O'])[1]? = some 'X' ∧
      (titleCase ['8', 'x', 'b', '-', 'm', 'O'])[2]? = some 'b' ∧
      titleCase ['8', 'x', 'b', '-', 'm', 'O'] = titleCase ['8', 'X', 'B', '-', 'M', 'o'] ∧
      titleCase ['8', 'x', 'b', '-', 'm', 'O'] =
        titleCase ['8', 'x', 'b'] ++ ['-'] ++ titleCase ['m', 'O'] := by
  have small : ∀ c ∈ ['8', 'x', 'b', '-', 'm', 'O'], c.toNat < 128 := by simp
  have small' : ∀ c ∈ ['8', 'X', 'B', '-', 'M', 'o'], c.toNat < 128 := by simp
  have hyphen : ¬IsAsciiLetter '-' := by decide
  obtain ⟨texts, parts⟩ := titleCase_character_by_character
  obtain ⟨-, characters, -, cases⟩ := texts _ small
  refine ⟨small, small', hyphen, ?_, ?_, (cases _ small').mpr (by decide), ?_⟩
  · rw [characters 1 (by decide)]
    decide
  · rw [characters 2 (by decide)]
    decide
  · exact parts ['8', 'x', 'b'] ['m', 'O'] '-' (by decide) hyphen

end BitmapFont
