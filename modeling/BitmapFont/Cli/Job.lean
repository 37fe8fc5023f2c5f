import BitmapFont.Cli.Words

/-!
Jobs of the command line.

A command line names a job, its arguments and options, and possibly a file with
settings, before or after the name of the job; the later one counts. Paths must
not be empty, and numbers are bytes in decimal.
-/

namespace BitmapFont.Cli

/-- Where a generated font goes and what it is called, as far as given. -/
structure Target where
  output : Option String
  name : Option String
deriving DecidableEq, Repr

/-- What the command line can do. -/
inductive Job where
  | rasterize (font : String) (sizes : List UInt8) (target : Target) (threshold : Option UInt8)
      (noPadding standard : Bool) (spaceMinWidth : Option UInt8)
  | atlas (image : String) (width height : UInt8) (target : Target)
  | info (path : String)
  | preview (path : String) (pointSize : UInt8) (text : String)
deriving DecidableEq, Repr

/-- A job and the file with the settings for it. -/
structure Invocation where
  config : Option String
  job : Job
deriving DecidableEq, Repr

/-! ### Jobs -/

/-- The option for a file with settings, which every job takes. -/
def configForm : OptionForm :=
  { long := "config", short := none, value := some .path }

def targetForms : List OptionForm := [
  { long := "output", short := some 'o', value := some .path },
  { long := "name", short := some 'n', value := some .text }]

def targetOf (given : Given) : Target :=
  { output := given.text? "output", name := given.text? "name" }

def rasterizeForm : CommandForm where
  options :=
    configForm :: targetForms ++ [
      { long := "threshold", short := none, value := some .byte },
      { long := "no-padding", short := none, value := none },
      { long := "standard", short := none, value := none },
      { long := "space-min-width", short := none, value := some .byte }]
  arguments := [.path]
  more := some .byte

/-- Rasterizing a font, which needs sizes unless the standard ones are asked
for. -/
def rasterize? (given : Given) : Option Job :=
  match given.arguments with
  | .text font :: sizes =>
    let standard := given.has "standard"
    if sizes = [] ∧ !standard then none
    else
      some (.rasterize font (sizes.filterMap Value.byte?) (targetOf given)
        (given.byte? "threshold") (given.has "no-padding") standard
        (given.byte? "space-min-width"))
  | _ => none

def atlasForm : CommandForm :=
  { options := configForm :: targetForms, arguments := [.path, .byte, .byte], more := none }

def atlas? (given : Given) : Option Job :=
  match given.arguments with
  | [.text image, .byte width, .byte height] => some (.atlas image width height (targetOf given))
  | _ => none

def infoForm : CommandForm :=
  { options := [configForm], arguments := [.path], more := none }

def info? (given : Given) : Option Job :=
  match given.arguments with
  | [.text path] => some (.info path)
  | _ => none

def previewForm : CommandForm :=
  { options := [configForm], arguments := [.path, .byte, .text], more := none }

def preview? (given : Given) : Option Job :=
  match given.arguments with
  | [.text path, .byte pointSize, .text text] => some (.preview path pointSize text)
  | _ => none

/-- The words of the job with a given name, and the job that is given by them unless
some are missing. -/
def job? (name : String) : Option (CommandForm × (Given → Option Job)) :=
  match name with
  | "ttf" => some (rasterizeForm, rasterize?)
  | "strip" => some (atlasForm, atlas?)
  | "info" => some (infoForm, info?)
  | "preview" => some (previewForm, preview?)
  | _ => none

/-- What becomes of asking for help on some words: they name one job, the help
itself, or nothing. -/
def helpOn : List String → Refusal
  | [] => .help
  | [name] => if name = "help" ∨ (job? name).isSome then .help else .malformed
  | _ => .malformed

/-- The job that words after its name describe. -/
def invocation? (config : Option String) (name : String) (words : List String) :
    Except Refusal Invocation :=
  match job? name with
  | none => .error (if name = "help" then helpOn words else .malformed)
  | some (form, read) => do
    let given ← scan form none .none words
    match read given with
    | some job => return { config := (given.text? configForm.long).orElse fun _ => config, job }
    | none => throw .malformed

/-- The job that a command line describes. -/
def parse? (config : Option String) : List String → Except Refusal Invocation
  | [] => .error .malformed
  | text :: rest =>
    match Word.ofText text with
    | .plain name => invocation? config name rest
    | .long name value =>
      if name = configForm.long then
        if config.isSome then .error .malformed
        else
          match value, rest with
          | some value, rest => do parse? (some (← readPath value)) rest
          | none, [] => .error .malformed
          | none, value :: rest =>
            match Word.ofText value with
            | .plain value => do parse? (some (← readPath value)) rest
            | _ => .error .malformed
      else if name = "version" ∧ value = none then .error .version
      else if name = "help" ∧ value = none then .error .help
      else .error .malformed
    | .short c _ =>
      if c = 'V' then .error .version else if c = 'h' then .error .help else .error .malformed
    | .escape => .error .malformed

end BitmapFont.Cli
