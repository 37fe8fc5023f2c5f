/-!
Values and tables of a TOML document.

A table remembers how it came to be, because that decides what may still be added
to it: a table opened by a header or written inline is closed to dotted keys, a
table that only stands on the way to another one may still get its own header, and
one made by dotted keys may not. `Body.put`, `Body.openTable` and
`Body.openElement` add to a document what one line of it says.

A bad number is a value all the same: a document may hold it as long as nobody
looks at it, and `Value.isSound` tells whether it does not.
-/

namespace BitmapFont.Toml

/-- How a table came to be. -/
inductive Origin where
  /-- By a header of its own; the document itself counts as such. -/
  | header
  /-- On the way to the table of a longer header. -/
  | implied
  /-- On the way to the value of a dotted key. -/
  | dotted
  /-- Written in braces. -/
  | inline
deriving DecidableEq, Repr

inductive Value where
  | string (text : String)
  | integer (n : Int)
  /-- A number with a fraction or an exponent, as it is written. -/
  | float (text : String)
  /-- A bad number, as it is written: an integer that does not fit 128 bits or has no
  digits or other characters among them, or a float that rounds to infinity. -/
  | badNumber (text : String)
  | boolean (b : Bool)
  /-- A date, a time, or both, as it is written. -/
  | moment (text : String)
  | array (items : List Value)
  /-- The tables opened by headers in double brackets, in order. -/
  | tables (elements : List Value)
  | table (origin : Origin) (entries : List (String × Value))

mutual

/-- Whether no number in a value is bad. -/
def Value.isSound : Value → Bool
  | .badNumber _ => false
  | .array items => valuesAreSound items
  | .tables elements => valuesAreSound elements
  | .table _ entries => entriesAreSound entries
  | _ => true

/-- Whether no number in any of some values is bad. -/
def valuesAreSound : List Value → Bool
  | [] => true
  | value :: values => value.isSound && valuesAreSound values

/-- Whether no number in the values of some entries is bad. -/
def entriesAreSound : List (String × Value) → Bool
  | [] => true
  | (_, value) :: entries => value.isSound && entriesAreSound entries

end

/-- A table that is being filled. -/
structure Body where
  origin : Origin
  entries : List (String × Value)

namespace Body

/-- The table of a document before its first line. -/
def document : Body :=
  { origin := .header, entries := [] }

def value (body : Body) : Value :=
  .table body.origin body.entries

/-- The table with an entry added after the others. -/
def append (body : Body) (key : String) (value : Value) : Body :=
  { body with entries := body.entries ++ [(key, value)] }

/-- The table with the value of an entry replaced. -/
def replace (body : Body) (key : String) (value : Value) : Body :=
  { body with entries := body.entries.map fun e => if e.1 = key then (key, value) else e }

/-- Changes the table that a path leads to, making the tables on the way that are
missing. The last of several tables stands for all of them. A dotted path does not
lead into a table with a header, and no path into an inline table. -/
def within (isDotted : Bool) (change : Body → Option Body) : List String → Body → Option Body
  | [], body => change body
  | key :: path, body =>
    match body.entries.lookup key with
    | none => do
      let origin := if isDotted then Origin.dotted else Origin.implied
      let inner ← within isDotted change path { origin, entries := [] }
      return body.append key inner.value
    | some (.table origin entries) =>
      if origin = .inline ∨ (isDotted ∧ origin = .header) then none
      else do
        let inner ← within isDotted change path { origin, entries }
        return body.replace key inner.value
    | some (.tables elements) =>
      match elements.reverse with
      | .table origin entries :: before => do
        let inner ← within isDotted change path { origin, entries }
        return body.replace key (.tables (inner.value :: before).reverse)
      | _ => none
    | some _ => none

/-- Adds the value of a possibly dotted key. A key is given once, and a dotted key
adds only to tables that dotted keys made. -/
def put (path : List String) (key : String) (value : Value) : Body → Option Body :=
  within true
    (fun body =>
      if (body.origin = .dotted ↔ path = []) ∨ (body.entries.lookup key).isSome then none
      else some (body.append key value))
    path

/-- Opens the table of a header. -/
def openTable (path : List String) (key : String) : Body → Option Body :=
  within false
    (fun body =>
      match body.entries.lookup key with
      | none => some (body.append key (.table .header []))
      | some (.table .implied entries) => some (body.replace key (.table .header entries))
      | some _ => none)
    path

/-- Opens one more table of a header in double brackets. -/
def openElement (path : List String) (key : String) : Body → Option Body :=
  within false
    (fun body =>
      match body.entries.lookup key with
      | none => some (body.append key (.tables [.table .header []]))
      | some (.tables elements) =>
        some (body.replace key (.tables (elements ++ [.table .header []])))
      | some _ => none)
    path

end Body

end BitmapFont.Toml
