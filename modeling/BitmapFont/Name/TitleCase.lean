import BitmapFont.Path
import BitmapFont.Unicode.Alphabetic
import BitmapFont.Unicode.CaseMapping

/-!
Font names made from file names.

A file name becomes a font name by dropping its extension and writing every word
with a capital: the first letter after anything that is no letter is upper case,
all other letters are lower case.
-/

namespace BitmapFont

/-- A text in title case, where `wordStart` tells whether a letter at its front
starts a word. -/
def titleCaseFrom (wordStart : Bool) : List Char → List Char
  | [] => []
  | c :: rest =>
    if Unicode.isAlphabetic c then
      (if wordStart then Unicode.toUpper c else Unicode.toLower c) ++ titleCaseFrom false rest
    else c :: titleCaseFrom true rest

/-- A text in title case. -/
def titleCase (text : List Char) : List Char :=
  titleCaseFrom true text

/-- The font name that the path of an input file suggests. -/
def nameFromPath (path : List Char) : List Char :=
  match Path.stem? path with
  | some stem => titleCase stem
  | none => []

end BitmapFont
