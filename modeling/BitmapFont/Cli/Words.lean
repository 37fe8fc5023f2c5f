/-!
The words of a command line.

A word is an option with a long or a short name, the mark `--` after which
nothing is an option any more, or a positional argument. An option that takes a
value has it attached or as its next word; in the latter case the value must not
look like an option. Every option is given at most once.

Words are looked at in order, and every value as soon as it is read, so a wrong
word wins over a later request for help, and that wins over anything missing.
-/

namespace BitmapFont.Cli

/-- Why a command line is not carried out. -/
inductive Refusal where
  | malformed
  | version
  | help
deriving DecidableEq, Repr

/-- What a word looks like. -/
inductive Word where
  /-- The mark after which nothing is an option. -/
  | escape
  /-- A long option and the text after its equals sign. -/
  | long (name : String) (value : Option String)
  /-- A short option and the characters after it. -/
  | short (name : Char) (rest : List Char)
  | plain (text : String)
deriving DecidableEq, Repr

namespace Word

/-- What a text looks like as a word. A lone dash is no option. -/
def ofText (text : String) : Word :=
  match text.toList with
  | ['-', '-'] => .escape
  | '-' :: '-' :: rest =>
    let name := String.ofList (rest.takeWhile (· ≠ '='))
    match rest.dropWhile (· ≠ '=') with
    | [] => .long name none
    | _ :: value => .long name (some (String.ofList value))
  | '-' :: c :: rest => .short c rest
  | _ => .plain text

end Word

/-! ### Values -/

inductive Value where
  | text (s : String)
  | byte (n : UInt8)
deriving DecidableEq, Repr

namespace Value

def text? : Value → Option String
  | text s => some s
  | byte _ => none

def byte? : Value → Option UInt8
  | text _ => none
  | byte n => some n

end Value

/-- A byte in decimal digits, with or without a sign. -/
def readByte? (text : String) : Option UInt8 :=
  let (negative, digits) :=
    match text.toList with
    | '+' :: digits => (false, digits)
    | '-' :: digits => (true, digits)
    | digits => (false, digits)
  if digits = [] ∨ digits.any (!·.isDigit) then none
  else
    let n := digits.foldl (fun n d => 10 * n + (d.toNat - '0'.toNat)) 0
    if n = 0 then some 0
    else if negative ∨ 255 < n then none
    else some (UInt8.ofNat n)

/-- A path, which is not empty. -/
def readPath (text : String) : Except Refusal String :=
  if text = "" then .error .malformed else .ok text

/-- What a value has to be. -/
inductive ValueKind where
  | text
  | path
  | byte
deriving DecidableEq, Repr

def ValueKind.read (kind : ValueKind) (text : String) : Except Refusal Value :=
  match kind with
  | .text => .ok (.text text)
  | .path => (readPath text).map .text
  | .byte =>
    match readByte? text with
    | some n => .ok (.byte n)
    | none => .error .malformed

/-! ### Forms -/

/-- An option: its long name, a short name if it has one, and what its value has to
be if it takes one. -/
structure OptionForm where
  long : String
  short : Option Char
  value : Option ValueKind
deriving DecidableEq, Repr

/-- The options and arguments that a command line may have. -/
structure CommandForm where
  options : List OptionForm
  /-- What the arguments have to be, in order. -/
  arguments : List ValueKind
  /-- What the arguments after these have to be, if there may be more. -/
  more : Option ValueKind
deriving DecidableEq, Repr

/-- What the argument at an index has to be, if there may be one. -/
def CommandForm.argument? (form : CommandForm) (index : Nat) : Option ValueKind :=
  form.arguments[index]?.orElse fun _ => form.more

/-! ### Given options and arguments -/

/-- The options and arguments of a command line. -/
structure Given where
  /-- Options that take a value, with their values. -/
  values : List (String × Value)
  /-- Options that take none. -/
  flags : List String
  arguments : List Value
deriving DecidableEq, Repr

namespace Given

def none : Given :=
  { values := [], flags := [], arguments := [] }

def text? (given : Given) (name : String) : Option String :=
  (given.values.lookup name).bind Value.text?

def byte? (given : Given) (name : String) : Option UInt8 :=
  (given.values.lookup name).bind Value.byte?

def has (given : Given) (name : String) : Bool :=
  given.flags.contains name

/-- Adds an option with a value, refused if it is given already. -/
def addValue (given : Given) (name : String) (kind : ValueKind) (text : String) :
    Except Refusal Given :=
  if (given.values.lookup name).isSome then .error .malformed
  else do return { given with values := (name, ← kind.read text) :: given.values }

/-- Adds an option without a value, refused if it is given already. -/
def addFlag (given : Given) (name : String) : Except Refusal Given :=
  if given.has name then .error .malformed
  else .ok { given with flags := name :: given.flags }

/-- Adds an argument, refused if there is one too many. -/
def addArgument (given : Given) (form : CommandForm) (text : String) : Except Refusal Given :=
  match form.argument? given.arguments.length with
  | some kind => do return { given with arguments := given.arguments ++ [← kind.read text] }
  | Option.none => .error .malformed

end Given

/-! ### Reading words -/

/-- The text of a value attached to a short option, which an equals sign may set
apart. -/
def attachedValue : List Char → String
  | '=' :: value => String.ofList value
  | value => String.ofList value

/-- What the options of a word ask for. -/
inductive Request where
  | complete (given : Given)
  /-- An option waits for its value. -/
  | awaiting (name : String) (kind : ValueKind) (given : Given)

def addShort (forms : List OptionForm) : List Char → Given → Except Refusal Request
  | [], given => .ok (.complete given)
  | c :: rest, given =>
    match forms.find? fun form => form.short = some c with
    | some { long, value := some kind, .. } =>
      if rest = [] then .ok (.awaiting long kind given)
      else do return .complete (← given.addValue long kind (attachedValue rest))
    | some { long, value := none, .. } => do addShort forms rest (← given.addFlag long)
    | none => .error (if c = 'h' then .help else .malformed)

def addLong (forms : List OptionForm) (name : String) (value : Option String) (given : Given) :
    Except Refusal Request :=
  match forms.find? fun form => form.long = name with
  | some form =>
    match form.value, value with
    | some kind, some text => do return .complete (← given.addValue name kind text)
    | some kind, none => .ok (.awaiting name kind given)
    | none, none => do return .complete (← given.addFlag name)
    | none, some _ => .error .malformed
  | none => .error (if name = "help" ∧ value = none then .help else .malformed)

/-- The options and arguments that words give, added to those already known. While
an option waits for its value, `waiting` is its name and what the value has to
be. -/
def scan (form : CommandForm) (waiting : Option (String × ValueKind)) (given : Given) :
    List String → Except Refusal Given
  | [] => if waiting.isSome then .error .malformed else .ok given
  | text :: rest =>
    match Word.ofText text with
    | .plain text =>
      match waiting with
      | some (name, kind) => do scan form none (← given.addValue name kind text) rest
      | none => do scan form none (← given.addArgument form text) rest
    | .escape =>
      if waiting.isSome then .error .malformed
      else rest.foldlM (fun given text => given.addArgument form text) given
    | .long name value => do
      if waiting.isSome then
        throw .malformed
      match ← addLong form.options name value given with
      | .complete given => scan form none given rest
      | .awaiting name kind given => scan form (some (name, kind)) given rest
    | .short c chars => do
      if waiting.isSome then
        throw .malformed
      match ← addShort form.options (c :: chars) given with
      | .complete given => scan form none given rest
      | .awaiting name kind given => scan form (some (name, kind)) given rest

end BitmapFont.Cli
