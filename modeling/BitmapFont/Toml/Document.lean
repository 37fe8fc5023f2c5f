import BitmapFont.Toml.Text

/-!
Reading TOML documents.

A document is a list of lines: headers that open a table, and keys with their
values. A key and its value share a line, except in an inline table, where line
ends and comments count as blanks around everything but the dots of a key. Values
nest up to a fixed depth, and keys have up to a fixed number of parts. Readers
return what they have read and the rest of the text, and their bound `fuel` counts
the steps that the length of the text allows.
-/

namespace BitmapFont.Toml

/-- How deeply arrays and inline tables may nest. -/
def maxDepth : Nat := 80

/-- How many parts a dotted key may have. -/
def maxKeyParts : Nat := 80

/-! ### Blanks and comments -/

/-- A text without the blanks at its front. -/
def dropBlanks (text : List Char) : List Char :=
  text.dropWhile isBlank

/-- What follows the line end after a possible comment. The end of the text ends
its line, too. -/
def afterComment? (inComment : Bool) : List Char → Option (List Char)
  | [] => some []
  | '\n' :: rest => some rest
  | '\r' :: '\n' :: rest => some rest
  | c :: rest =>
    if inComment then (if isPlain c then afterComment? true rest else none)
    else if c = '#' then afterComment? true rest
    else none

/-- What follows the end of a line on which nothing but a comment is left. -/
def afterLine? (text : List Char) : Option (List Char) :=
  afterComment? false (dropBlanks text)

/-- A text without the blanks, line ends and comments at its front. -/
def dropFiller? (inComment : Bool) : List Char → Option (List Char)
  | [] => some []
  | '\n' :: rest => dropFiller? false rest
  | '\r' :: '\n' :: rest => dropFiller? false rest
  | c :: rest =>
    if inComment then (if isPlain c then dropFiller? true rest else none)
    else if isBlank c then dropFiller? false rest
    else if c = '#' then dropFiller? true rest
    else some (c :: rest)

/-! ### Keys -/

/-- Whether a character can stand in a key without quotes. -/
def isBareKeyChar (c : Char) : Bool :=
  c.isAlphanum || c == '_' || c == '-'

/-- A key without dots. -/
def simpleKey? (text : List Char) : Option (String × List Char) :=
  match text with
  | '"' :: _ => lineString? text
  | '\'' :: _ => lineString? text
  | _ =>
    let key := text.takeWhile isBareKeyChar
    if key = [] then none else some (String.ofList key, text.dropWhile isBareKeyChar)

/-- A key of at most `count` parts: those before the last dot, and the last one.
Blanks may stand around the dots. -/
def keyOf? : (count : Nat) → List Char → Option ((List String × String) × List Char)
  | 0, _ => none
  | count + 1, text => do
    let (part, rest) ← simpleKey? text
    match dropBlanks rest with
    | '.' :: rest =>
      let ((parts, last), rest) ← keyOf? count (dropBlanks rest)
      return ((part :: parts, last), rest)
    | rest => return (([], part), rest)

def key? (text : List Char) : Option ((List String × String) × List Char) :=
  keyOf? maxKeyParts text

/-- What follows the equals sign after a key and the blanks around it. -/
def afterEquals? (text : List Char) : Option (List Char) :=
  match dropBlanks text with
  | '=' :: rest => some (dropBlanks rest)
  | _ => none

/-- What follows the equals sign after a key of an inline table and the blanks, line
ends and comments around it. -/
def afterFieldEquals? (text : List Char) : Option (List Char) := do
  match ← dropFiller? false text with
  | '=' :: rest => dropFiller? false rest
  | _ => none

/-! ### Values -/

mutual

/-- The value at the front of a text. -/
def value? : (fuel depth : Nat) → List Char → Option (Value × List Char)
  | 0, _, _ => none
  | fuel + 1, depth, text =>
    match text with
    | '[' :: rest => if depth = 0 then none else items? fuel (depth - 1) [] rest
    | '{' :: rest =>
      if depth = 0 then none
      else fields? fuel (depth - 1) { origin := .inline, entries := [] } rest
    | '"' :: _ => (string? text).map fun (s, rest) => (.string s, rest)
    | '\'' :: _ => (string? text).map fun (s, rest) => (.string s, rest)
    | _ => scalar? text

/-- The items of an array up to its closing bracket, after those already read, last
first. A comma may follow the last item. -/
def items? : (fuel depth : Nat) → (read : List Value) → List Char → Option (Value × List Char)
  | 0, _, _, _ => none
  | fuel + 1, depth, read, text => do
    match ← dropFiller? false text with
    | ']' :: rest => return (.array read.reverse, rest)
    | text =>
      let (item, rest) ← value? fuel depth text
      match ← dropFiller? false rest with
      | ',' :: rest => items? fuel depth (item :: read) rest
      | ']' :: rest => return (.array (item :: read).reverse, rest)
      | _ => none

/-- The fields of an inline table up to its closing brace, added to those already
read. A comma may follow the last field. -/
def fields? : (fuel depth : Nat) → (read : Body) → List Char → Option (Value × List Char)
  | 0, _, _, _ => none
  | fuel + 1, depth, read, text => do
    match ← dropFiller? false text with
    | '}' :: rest => return (read.value, rest)
    | text =>
      let ((path, key), rest) ← key? text
      let (value, rest) ← value? fuel depth (← afterFieldEquals? rest)
      let read ← read.put path key value
      match ← dropFiller? false rest with
      | ',' :: rest => fields? fuel depth read rest
      | '}' :: rest => return (read.value, rest)
      | _ => none

end

/-! ### Documents -/

/-- What follows a closing bracket or two and the rest of their line. -/
def afterHeader? (brackets : List Char) (text : List Char) : Option (List Char) :=
  let text := dropBlanks text
  if text.take brackets.length = brackets then afterLine? (text.drop brackets.length) else none

/-- Reads lines into the document `root`. Keys go to the table that the last
header opened, the one at `current`. -/
def lines? : (fuel : Nat) → (root : Body) → (current : List String) → List Char → Option Body
  | 0, _, _, _ => none
  | fuel + 1, root, current, text => do
    match dropBlanks text with
    | [] => return root
    | '[' :: '[' :: rest =>
      let ((path, key), rest) ← key? (dropBlanks rest)
      let rest ← afterHeader? [']', ']'] rest
      lines? fuel (← root.openElement path key) (path ++ [key]) rest
    | '[' :: rest =>
      let ((path, key), rest) ← key? (dropBlanks rest)
      let rest ← afterHeader? [']'] rest
      lines? fuel (← root.openTable path key) (path ++ [key]) rest
    | c :: rest =>
      if c = '#' ∨ c = '\n' ∨ c = '\r' then
        lines? fuel root current (← afterLine? (c :: rest))
      else
        let ((path, key), rest) ← key? (c :: rest)
        let (value, rest) ← value? fuel maxDepth (← afterEquals? rest)
        let root ← root.within false (Body.put path key value) current
        lines? fuel root current (← afterLine? rest)

/-- The entries of a document, none if the text is not TOML. A byte order mark at
its start is ignored. -/
def parse? (text : List Char) : Option (List (String × Value)) :=
  let text :=
    match text with
    | '\uFEFF' :: rest => rest
    | _ => text
  (lines? (2 * text.length + 2) .document [] text).map (·.entries)

end BitmapFont.Toml
