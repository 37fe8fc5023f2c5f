import BitmapFont.Toml.Scalar

/-!
Strings of a TOML document.

A string stands in double quotes, where backslashes escape, or in single quotes,
where every character stands for itself. Tripled quotes hold several lines. A
string is read in two steps: its raw text is cut out up to the closing quotes,
then the escapes in it are replaced.
-/

namespace BitmapFont.Toml

/-- Whether a character can stand in a comment or on one line of a string: it is a
tab or no control character. -/
def isPlain (c : Char) : Bool :=
  c == '\t' || (' ' ≤ c && c != '\x7f')

/-- Whether all characters can stand in a string of several lines. A carriage
return has to be followed by a line feed. -/
def arePlainLines : List Char → Bool
  | [] => true
  | '\r' :: '\n' :: rest => arePlainLines rest
  | c :: rest => (c == '\n' || isPlain c) && arePlainLines rest

/-! ### Escapes -/

/-- The number that hexadecimal digits stand for. -/
def hexValue? (digits : List Char) : Option Nat :=
  (digits.mapM (digitValue? 16)).map (numberOf 16)

/-- The character with a given number, unless it is a surrogate or too large. -/
def scalarChar? (n : Nat) : Option Char :=
  if n < 0xD800 ∨ (0xDFFF < n ∧ n < 0x110000) then some (Char.ofNat n) else none

/-- The character of `count` hexadecimal digits at the front of a text, and what
follows them. -/
def hexEscape? (count : Nat) (text : List Char) : Option (Char × List Char) := do
  let digits := text.take count
  if digits.length < count then
    none
  return (← scalarChar? (← hexValue? digits), text.drop count)

/-- The character that an escape stands for, and what follows the escape. The text
starts after the backslash. -/
def escape? : List Char → Option (Char × List Char)
  | 'b' :: rest => some ('\x08', rest)
  | 't' :: rest => some ('\t', rest)
  | 'n' :: rest => some ('\n', rest)
  | 'f' :: rest => some ('\x0c', rest)
  | 'r' :: rest => some ('\r', rest)
  | 'e' :: rest => some ('\x1b', rest)
  | '"' :: rest => some ('"', rest)
  | '\\' :: rest => some ('\\', rest)
  | 'x' :: rest => hexEscape? 2 rest
  | 'u' :: rest => hexEscape? 4 rest
  | 'U' :: rest => hexEscape? 8 rest
  | _ => none

def isBlank (c : Char) : Bool :=
  c == ' ' || c == '\t'

/-- Whether a character is a blank or part of a line end. -/
def isSpace (c : Char) : Bool :=
  isBlank c || c == '\n' || c == '\r'

/-- Whether nothing but blanks stand before the first line end of a text. -/
def endsLine (text : List Char) : Bool :=
  match text.dropWhile isBlank with
  | '\n' :: _ => true
  | '\r' :: '\n' :: _ => true
  | _ => false

/-- The text with its escapes replaced, none if one is malformed. Where lines may
end, a backslash at the end of one drops the space up to the next character. The
bound `fuel` is the length of the text. -/
def unescape? (lines : Bool) : (fuel : Nat) → List Char → Option (List Char)
  | _, [] => some []
  | 0, _ => none
  | fuel + 1, '\\' :: rest =>
    if lines && endsLine rest then unescape? lines fuel (rest.dropWhile isSpace)
    else do
      let (c, rest) ← escape? rest
      return c :: (← unescape? lines fuel rest)
  | fuel + 1, c :: rest => (unescape? lines fuel rest).map (c :: ·)

/-! ### Raw texts -/

/-- The raw text up to a closing double quote, and what follows the quote. -/
def untilDoubleQuote : List Char → Option (List Char × List Char)
  | [] => none
  | '"' :: rest => some ([], rest)
  | '\\' :: c :: rest => (untilDoubleQuote rest).map fun (raw, rest) => ('\\' :: c :: raw, rest)
  | c :: rest => (untilDoubleQuote rest).map fun (raw, rest) => (c :: raw, rest)

/-- The raw text up to a closing single quote, and what follows the quote. -/
def untilSingleQuote : List Char → Option (List Char × List Char)
  | [] => none
  | '\'' :: rest => some ([], rest)
  | c :: rest => (untilSingleQuote rest).map fun (raw, rest) => (c :: raw, rest)

/-- How many of the quotes at the front of a text belong to a string that three of
them close: up to two more can stand before the closing ones. -/
def innerQuotes (quote : Char) (text : List Char) : Nat :=
  min 2 ((text.takeWhile (· == quote)).length - 3)

/-- The raw text up to three closing quotes, and what follows them. Where escapes
are possible, an escaped quote does not close. -/
def untilTripleQuote (quote : Char) (escapes : Bool) :
    List Char → Option (List Char × List Char)
  | [] => none
  | c :: rest =>
    if c = quote ∧ rest.take 2 = [quote, quote] then
      let inner := innerQuotes quote (c :: rest)
      some (List.replicate inner quote, rest.drop (inner + 2))
    else if escapes ∧ c = '\\' then
      match rest with
      | [] => none
      | d :: rest =>
        (untilTripleQuote quote escapes rest).map fun (raw, rest) => (c :: d :: raw, rest)
    else (untilTripleQuote quote escapes rest).map fun (raw, rest) => (c :: raw, rest)

/-- A text without the line end at its front. -/
def dropLineEnd : List Char → List Char
  | '\n' :: rest => rest
  | '\r' :: '\n' :: rest => rest
  | text => text

/-! ### Strings -/

/-- The string on one line at the front of a text, and what follows it. -/
def lineString? : List Char → Option (String × List Char)
  | '"' :: rest => do
    let (raw, rest) ← untilDoubleQuote rest
    if raw.all isPlain then
      return (String.ofList (← unescape? false raw.length raw), rest)
    else none
  | '\'' :: rest => do
    let (raw, rest) ← untilSingleQuote rest
    if raw.all isPlain then
      return (String.ofList raw, rest)
    else none
  | _ => none

/-- The string at the front of a text, and what follows it. -/
def string? : List Char → Option (String × List Char)
  | '"' :: '"' :: '"' :: rest => do
    let (raw, rest) ← untilTripleQuote '"' true (dropLineEnd rest)
    if arePlainLines raw then
      return (String.ofList (← unescape? true raw.length raw), rest)
    else none
  | '\'' :: '\'' :: '\'' :: rest => do
    let (raw, rest) ← untilTripleQuote '\'' false (dropLineEnd rest)
    if arePlainLines raw then
      return (String.ofList raw, rest)
    else none
  | text => lineString? text

end BitmapFont.Toml
