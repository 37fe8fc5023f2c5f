import BitmapFont.Toml.Value

/-!
Numbers, dates and times of a TOML document.

A scalar is a word: `true`, `false`, a date or time, an integer, or a float. What a
word is meant to be shows at its front: digits that a dash or a colon follows begin
a date or time, a dot or an exponent makes a float, and a prefix an integer of
another base. Underscores may stand between digits, and one after a sign.

Reading settles only whether a number has the shape of one. An integer may still be
bad, since its shape says little about what follows an underscore, and so may a
number that is too large.
-/

namespace BitmapFont.Toml

/-! ### Digits -/

/-- The value of a character as a digit of a base of up to 16. -/
def digitValue? (base : Nat) (c : Char) : Option Nat :=
  let value :=
    if '0' ≤ c ∧ c ≤ '9' then c.toNat - '0'.toNat
    else if 'a' ≤ c ∧ c ≤ 'f' then c.toNat - 'a'.toNat + 10
    else if 'A' ≤ c ∧ c ≤ 'F' then c.toNat - 'A'.toNat + 10
    else 16
  if value < base then some value else none

def isDigitOf (base : Nat) (c : Char) : Bool :=
  (digitValue? base c).isSome

/-- The number that digits stand for. -/
def numberOf (base : Nat) (digits : List Nat) : Nat :=
  digits.foldl (fun n d => base * n + d) 0

/-- A text without its sign, which is set apart if there is one. -/
def splitSign : List Char → Option Char × List Char
  | '+' :: rest => (some '+', rest)
  | '-' :: rest => (some '-', rest)
  | text => (none, text)

def signed (sign : Option Char) (n : Nat) : Int :=
  if sign = some '-' then -(n : Int) else n

/-- Whether every underscore stands between digits of a base. `afterDigit` tells
whether a digit, or the sign of the number, stands before the text. -/
def gapsFit (base : Nat) (afterDigit : Bool) : List Char → Bool
  | [] => true
  | c :: rest =>
    if c = '_' then afterDigit && rest.head?.any (isDigitOf base) && gapsFit base false rest
    else gapsFit base (isDigitOf base c) rest

/-! ### Integers -/

/-- Whether an integer fits 128 bits, with or without a sign. -/
def fits128Bits (n : Int) : Bool :=
  -(Nat.pow 2 127 : Int) ≤ n && n < (Nat.pow 2 128 : Int)

/-- The integer of a sign and a text of digits and underscores, bad if it is too
large or there is anything else in the text. -/
def integerOf (base : Nat) (sign : Option Char) (text : List Char) (word : List Char) : Value :=
  match (text.filter (· != '_')).mapM (digitValue? base) with
  | none => .badNumber (String.ofList word)
  | some [] => .badNumber (String.ofList word)
  | some digits =>
    let n := signed sign (numberOf base digits)
    if fits128Bits n then .integer n else .badNumber (String.ofList word)

/-- An integer of another base, after its prefix. -/
def radixInteger? (base : Nat) (text word : List Char) : Option Value :=
  if text.all (fun c => c == '_' || isDigitOf base c) && gapsFit 16 false text then
    some (integerOf base none text word)
  else none

/-- A decimal integer, after its sign. It has no needless zero in front, and around
underscores any digit up to `F` will do. -/
def decimalInteger? (sign : Option Char) (text word : List Char) : Option Value :=
  if text.head? = some '0' ∧ text ≠ ['0'] then none
  else if gapsFit 16 sign.isSome text then some (integerOf 10 sign text word)
  else none

/-! ### Floats -/

/-- Whether `mantissa * 10 ^ exponent` rounds to a finite double: it is less than
the middle between the largest double and the next power of two. -/
def isFinite (mantissa : List Nat) (exponent : Int) : Bool :=
  let limit : Nat := Nat.pow 2 1024 - Nat.pow 2 970
  let m := numberOf 10 mantissa
  if m = 0 then true
  else if (mantissa.length : Int) + exponent < 300 then true
  else if 400 < exponent then false
  else if 0 ≤ exponent then m * Nat.pow 10 exponent.toNat < limit
  else m < limit * Nat.pow 10 (-exponent).toNat

/-- Whether a character can stand in the digits of a number. -/
def isDigitOrGap (c : Char) : Bool :=
  c.isDigit || c == '_'

/-- The digits at the front of a text, which may be set apart by underscores, and
what follows them, none if there is no digit. -/
def digits? (text : List Char) : Option (List Nat × List Char) :=
  match (text.takeWhile isDigitOrGap).filterMap (digitValue? 10) with
  | [] => none
  | digits => some (digits, text.dropWhile isDigitOrGap)

/-- The fraction at the front of a text, without digits if there is none, and what
follows it. -/
def fraction? : List Char → Option (List Nat × List Char)
  | '.' :: rest => digits? rest
  | text => some ([], text)

/-- The exponent that a text is, zero if it is empty. -/
def exponent? : List Char → Option Int
  | [] => some 0
  | c :: rest =>
    if c = 'e' ∨ c = 'E' then
      let (sign, rest) := splitSign rest
      match digits? rest with
      | some (digits, []) => some (signed sign (numberOf 10 digits))
      | _ => none
    else none

/-- A float, after its sign. -/
def float? (sign : Option Char) (text word : List Char) : Option Value := do
  let (whole, rest) ← digits? text
  let (fraction, rest) ← fraction? rest
  let exponent ← exponent? rest
  if (1 < whole.length ∧ text.head? = some '0') ∨ !gapsFit 10 sign.isSome text then
    none
  return if isFinite (whole ++ fraction) (exponent - fraction.length) then
    .float (String.ofList word)
  else .badNumber (String.ofList word)

/-! ### Dates and times -/

/-- A number of exactly two digits at the front of a text. -/
def twoDigits? : List Char → Option (Nat × List Char)
  | a :: b :: rest => do
    let a ← digitValue? 10 a
    let b ← digitValue? 10 b
    return (10 * a + b, rest)
  | _ => none

/-- Days of a month. -/
def daysInMonth (year month : Nat) : Nat :=
  if month = 2 then
    if year % 4 = 0 ∧ (year % 100 ≠ 0 ∨ year % 400 = 0) then 29 else 28
  else if month = 4 ∨ month = 6 ∨ month = 9 ∨ month = 11 then 30
  else 31

/-- What follows a date at the front of a text. -/
def afterDate? (text : List Char) : Option (List Char) := do
  let (century, text) ← twoDigits? text
  let (year, text) ← twoDigits? text
  match text with
  | '-' :: text => do
    let (month, text) ← twoDigits? text
    match text with
    | '-' :: text => do
      let (day, text) ← twoDigits? text
      let year := 100 * century + year
      if 1 ≤ month ∧ month ≤ 12 ∧ 1 ≤ day ∧ day ≤ daysInMonth year month then some text
      else none
    | _ => none
  | _ => none

/-- What follows the fraction of a second at the front of a text, if there is
one. -/
def afterFraction? : List Char → Option (List Char)
  | '.' :: text =>
    match text with
    | c :: rest => if c.isDigit then some (rest.dropWhile Char.isDigit) else none
    | [] => none
  | text => some text

/-- What follows a time at the front of a text. Seconds are optional. -/
def afterTime? (text : List Char) : Option (List Char) := do
  let (hour, text) ← twoDigits? text
  match text with
  | ':' :: text => do
    let (minute, text) ← twoDigits? text
    if 23 < hour ∨ 59 < minute then
      none
    match text with
    | ':' :: text => do
      let (second, text) ← twoDigits? text
      if 60 < second then
        none
      afterFraction? text
    | _ => some text
  | _ => none

/-- Whether a text is the distance of a time zone from universal time. -/
def isZone (text : List Char) : Bool :=
  match text with
  | [c] => c == 'Z' || c == 'z'
  | c :: rest =>
    (c == '+' || c == '-') &&
      match twoDigits? rest with
      | some (hour, ':' :: rest) =>
        match twoDigits? rest with
        | some (minute, []) => hour ≤ 23 && minute ≤ 59
        | _ => false
      | _ => false
  | [] => false

/-- Whether a text is a date, a time, or a date and a time with or without a
zone. -/
def isMoment (text : List Char) : Bool :=
  match afterDate? text with
  | some [] => true
  | some (c :: rest) =>
    (c == 'T' || c == 't' || c == ' ') &&
      match afterTime? rest with
      | some zone => zone.isEmpty || isZone zone
      | none => false
  | none => afterTime? text == some []

/-- Whether a text has the shape of a date, which a time may follow after a
space. -/
def isDateShaped (text : List Char) : Bool :=
  text.length == 10 && (afterDate? text).isSome

/-! ### Words -/

/-- Whether a character ends a word. -/
def endsWord (c : Char) : Bool :=
  c == ' ' || c == '\t' || c == '\r' || c == '\n' || c == ',' || c == '=' || c == '[' ||
    c == ']' || c == '{' || c == '}' || c == '#'

/-- Whether a character shows that a number is a float. -/
def marksFloat (c : Char) : Bool :=
  c == '.' || c == 'e' || c == 'E'

/-- The number, date or time that a word stands for. -/
def number? (word : List Char) : Option Value :=
  let (sign, text) := splitSign word
  if text = "inf".toList ∨ text = "nan".toList then some (.float (String.ofList word))
  else
    match text with
    | '0' :: 'x' :: rest => if sign.isSome then none else radixInteger? 16 rest word
    | '0' :: 'o' :: rest => if sign.isSome then none else radixInteger? 8 rest word
    | '0' :: 'b' :: rest => if sign.isSome then none else radixInteger? 2 rest word
    | _ =>
      match text.dropWhile Char.isDigit with
      | [] => if text = [] then none else decimalInteger? sign text word
      | c :: rest =>
        if c = '-' ∨ c = ':' then
          if isMoment word then some (.moment (String.ofList word)) else none
        else if (c :: rest).any marksFloat then float? sign text word
        else if c = '_' then decimalInteger? sign text word
        else none

/-- The value that a word stands for. -/
def scalarOf? (word : List Char) : Option Value :=
  if word = "true".toList then some (.boolean true)
  else if word = "false".toList then some (.boolean false)
  else number? word

/-- The scalar at the front of a text, and what follows it. A date takes a time
after a space with it. -/
def scalar? (text : List Char) : Option (Value × List Char) :=
  let word := text.takeWhile (!endsWord ·)
  let rest := text.dropWhile (!endsWord ·)
  match rest with
  | ' ' :: c :: more =>
    if isDateShaped word ∧ c.isDigit then
      (scalarOf? (word ++ ' ' :: (c :: more).takeWhile (!endsWord ·))).map
        (·, (c :: more).dropWhile (!endsWord ·))
    else (scalarOf? word).map (·, rest)
  | _ => (scalarOf? word).map (·, rest)

end BitmapFont.Toml
