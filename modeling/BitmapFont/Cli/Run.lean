import BitmapFont.Cli.Job
import BitmapFont.Edit.Session
import BitmapFont.Image.Atlas
import BitmapFont.Image.File
import BitmapFont.Raster.Outline
import BitmapFont.Raster.Sizes
import BitmapFont.Settings
import BitmapFont.Text.Render

/-!
Running a command line.

A run reads the files that its job needs, and ends with an exit code, a text and,
if it failed, a report. Malformed command lines end with code 2 and failed jobs
with code 1. The means to reach files are a parameter, so a run works on the files
of the system as well as on those of a store.
-/

namespace BitmapFont.Cli

/-! ### Reports -/

/-- Why a job failed: what it was doing, or what was wrong, and the causes of that,
the nearest first. -/
structure Failure where
  headline : String
  causes : List String
deriving DecidableEq, Repr

namespace Failure

def plain (headline : String) : Failure :=
  { headline, causes := [] }

def ofError (e : FontError) : Failure :=
  { headline := e.message, causes := e.source?.toList }

/-- A library operation that failed while something was done. -/
def during (doing : String) (e : FontError) : Failure :=
  { headline := doing, causes := e.message :: e.source?.toList }

/-- One line for every cause, numbered from `k` on. -/
def numbered (k : Nat) : List String → String
  | [] => ""
  | cause :: rest => "\n    " ++ toString k ++ ": " ++ cause ++ numbered (k + 1) rest

/-- The report of a failure. A single cause is not numbered. -/
def report (failure : Failure) : String :=
  "Error: " ++ failure.headline ++
    match failure.causes with
    | [] => ""
    | [cause] => "\n\nCaused by:\n    " ++ cause
    | causes => "\n\nCaused by:" ++ numbered 0 causes

end Failure

structure Ending where
  exitCode : Nat
  stdout : String
  stderr : String
deriving DecidableEq, Repr

namespace Ending

def success (stdout : String) : Ending :=
  { exitCode := 0, stdout, stderr := "" }

def failure (failure : Failure) : Ending :=
  { exitCode := 1, stdout := "", stderr := failure.report ++ "\n" }

def refusal : Refusal → Ending
  | .malformed => { exitCode := 2, stdout := "", stderr := "error: invalid arguments\n" }
  | .version => success "bmf_gen 0.1.0\n"
  | .help => success "Usage: bmf_gen [OPTIONS] <COMMAND>\n"

end Ending

/-! ### Texts -/

/-- A byte as a hexadecimal number of at least two digits. -/
def hexByte (b : UInt8) : String :=
  let digits := String.ofList (Nat.toDigits 16 b.toNat)
  "0x" ++ (if b < 16 then "0" else "") ++ digits

/-- The line that describes a sequence. -/
def sequenceLine (index : Nat) (s : Sequence) : String :=
  let (least, greatest) := s.widthRange
  s!"  #{index}: {s.pointSize}pt, height {s.height}, baseline {s.baseline}, " ++
    s!"glyph width {least}-{greatest}\n"

def fontInfo (f : Font) : String :=
  s!"Name:      {f.name.text}\n" ++
  s!"Version:   {f.version.code}\n" ++
  s!"Flags:     {hexByte f.flags}\n" ++
  s!"Sequences: {f.sequenceCount}\n" ++
  String.join (f.sequences.mapIdx sequenceLine)

def bracketed (numbers : List UInt8) : String :=
  "[" ++ ", ".intercalate (numbers.map toString) ++ "]"

/-- A text rendered with the sequence of a point size. -/
def previewText (f : Font) (pointSize : UInt8) (text : String) : Except Failure String :=
  match f.sequenceForPointSize? pointSize with
  | some sequence => .ok (sequence.renderText text.toList).asciiArt
  | none =>
    let available := bracketed (f.sequences.map (·.pointSize))
    .error (.plain s!"no sequence for {pointSize}pt, available: {available}")

/-! ### Jobs -/

section Jobs

variable {m : Type → Type} [Monad m]

abbrev Attempt (m : Type → Type) := ExceptT Failure m

/-- An outcome without effects. -/
def attempt {α : Type} (outcome : Except Failure α) : Attempt m α :=
  ExceptT.mk (pure outcome)

def loadSettings (access : FileAccess m) (config : Option String) : Attempt m Settings :=
  match config with
  | none => pure .default
  | some path => do
    let failed (cause : String) : Failure :=
      { headline := "reading config " ++ path, causes := [cause] }
    match ← access.read path with
    | .error cause => throw (failed cause.message)
    | .ok bytes =>
      match String.fromUTF8? ⟨bytes.toArray⟩ with
      | none => throw (failed IoError.notText.message)
      | some text =>
        match Settings.parse? text with
        | some settings => return settings
        | none => throw (failed "invalid settings")

def loadFont (access : FileAccess m) (path : String) : Attempt m Font := do
  let content ← access.read path
  attempt ((Font.ofContent content).mapError (.during ("reading " ++ path)))

def saveFont (access : FileAccess m) (path : String) (f : Font) : Attempt m Unit := do
  let failed := Failure.during ("writing " ++ path)
  let stream ← attempt (f.encode.mapError failed)
  let outcome ← access.write path stream
  attempt (outcome.mapError fun cause => failed (.io cause))

/-- The raster options of a job: those of the settings, where a given threshold
asks for shades and no padding wins. -/
def rasterOptions (settings : Settings) (threshold : Option UInt8) (noPadding : Bool) :
    RasterOptions :=
  let options :=
    match threshold with
    | some threshold => { settings.raster with mode := .threshold, threshold }
    | none => settings.raster
  if noPadding then { options with bearingPadding := false } else options

/-- Does a job and returns what it prints. -/
def perform (access : FileAccess m) (format : OutlineFormat) (settings : Settings) :
    Job → Attempt m String
  | .rasterize path sizes target threshold noPadding standard spaceMinWidth => do
    let options := rasterOptions settings threshold noPadding
    let sizes := Raster.collectSizes sizes standard
    let (output, name) := settings.resolve target.output target.name path
    let content ← access.read path
    let engine ← attempt <|
      (FontEngine.ofContent format content).mapError (.during ("loading " ++ path))
    let sequences ← attempt <|
      (Raster.rasterizeSizes (m := Id) engine sizes options fun _ => ()).mapError .ofError
    let font ← attempt ((Font.ofSequences name sequences).mapError .ofError)
    let session := Session.ofFont font
    let session ← match spaceMinWidth.orElse fun _ => settings.spaceMinWidth with
      | none => pure session
      | some width => do
        let (fixed, session) := (Session.fixSpaceWidth width).on session
        let _ ← attempt (fixed.mapError .ofError)
        pure session
    saveFont access output session.font
    return s!"Successfully generated {output} ({sizes.length} sizes)\n"
  | .atlas path width height target => do
    let (output, name) := settings.resolve target.output target.name path
    let content ← access.read path
    let image ← attempt <|
      (MonoImage.ofContent path content).mapError (.during ("loading " ++ path))
    let sequence ← attempt ((Atlas.importSequence image width height).mapError .ofError)
    saveFont access output (Font.withSequence name sequence)
    return s!"Successfully generated {output}\n"
  | .info path => do
    return fontInfo (← loadFont access path)
  | .preview path pointSize text => do
    attempt (previewText (← loadFont access path) pointSize text)

def carryOut (access : FileAccess m) (format : OutlineFormat) (invocation : Invocation) :
    Attempt m String := do
  let settings ← loadSettings access invocation.config
  perform access format settings invocation.job

def run (access : FileAccess m) (format : OutlineFormat) (words : List String) :
    m Ending :=
  match parse? none words with
  | .error refusal => pure (.refusal refusal)
  | .ok invocation => do
    match ← (carryOut access format invocation).run with
    | .ok text => return .success text
    | .error failure => return .failure failure

end Jobs

end BitmapFont.Cli
