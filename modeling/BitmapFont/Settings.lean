import BitmapFont.Name.TitleCase
import BitmapFont.Raster.Options
import BitmapFont.Toml.Document

/-!
Settings of the generator.

Settings are read from a TOML document. A setting that is missing has its default,
an unknown one is ignored, and one of the wrong type or out of range makes the
whole document unusable. So does a bad number in an ignored setting. What the
command line gives wins over the settings.
-/

namespace BitmapFont

open Toml (Value)

/-- The settings of the generator. -/
structure Settings where
  output : String
  /-- The name of the font, unless it is made from the name of the input. -/
  name : Option String
  raster : RasterOptions
  /-- The width that a space has at least after a rasterization. -/
  spaceMinWidth : Option UInt8
  /-- Which messages are logged. -/
  logLevel : String
deriving DecidableEq

namespace Settings

/-- The settings of an empty document. -/
def default : Settings where
  output := "output.bmf"
  name := none
  raster := .default
  spaceMinWidth := none
  logLevel := "info"

/-! ### Values -/

def text? : Value → Option String
  | .string s => some s
  | _ => none

def flag? : Value → Option Bool
  | .boolean b => some b
  | _ => none

/-- A number from 0 to 255. -/
def byte? : Value → Option UInt8
  | .integer n => if 0 ≤ n ∧ n ≤ 255 then some (UInt8.ofNat n.toNat) else none
  | _ => none

/-- Whether a value is an array or table without content. -/
def isVoid : Value → Bool
  | .array [] => true
  | .table _ [] => true
  | _ => false

/-- A render mode: its name, or a table whose only key is its name and has no
content. -/
def mode? : Value → Option RenderMode
  | .string s => RenderMode.ofName? s
  | .table _ [(name, content)] => if isVoid content then RenderMode.ofName? name else none
  | _ => none

/-- The value of a setting, or its default if it is missing. -/
def setting? {α : Type} (entries : List (String × Value)) (key : String)
    (read : Value → Option α) (default : α) : Option α :=
  match entries.lookup key with
  | none => some default
  | some value => read value

/-- The first of some values, or a default if there is none. -/
def first? {α : Type} (values : List Value) (read : Value → Option α) (default : α) : Option α :=
  match values with
  | [] => some default
  | value :: _ => read value

/-- Raster options: a table of them, or an array of their values in order, of which
more than these are not looked at. A date or time counts as a table without any of
them. -/
def raster? (value : Value) : Option RasterOptions :=
  let initial := RasterOptions.default
  match value with
  | .table _ entries => do
    if !Toml.entriesAreSound entries then
      none
    let mode ← setting? entries "mode" mode? initial.mode
    let threshold ← setting? entries "threshold" byte? initial.threshold
    let bearingPadding ← setting? entries "bearing_padding" flag? initial.bearingPadding
    return { mode, threshold, bearingPadding }
  | .array values => inOrder values
  | .tables values => inOrder values
  | .moment _ => some initial
  | _ => none
where
  /-- Raster options from an array of their values. -/
  inOrder (values : List Value) : Option RasterOptions := do
    let initial := RasterOptions.default
    let mode ← first? values mode? initial.mode
    let threshold ← first? (values.drop 1) byte? initial.threshold
    let bearingPadding ← first? (values.drop 2) flag? initial.bearingPadding
    return { mode, threshold, bearingPadding }

/-- The settings that the entries of a document give. Bad numbers are
looked for in every entry, but among the raster options only where these are looked
at. -/
def ofEntries? (entries : List (String × Value)) : Option Settings := do
  if !Toml.entriesAreSound (entries.filter fun entry => entry.1 != "raster") then
    none
  let output ← setting? entries "output" text? default.output
  let name ← setting? entries "name" (fun v => (text? v).map some) none
  let raster ← setting? entries "raster" raster? default.raster
  let spaceMinWidth ← setting? entries "space_min_width" (fun v => (byte? v).map some) none
  let logLevel ← setting? entries "log_level" text? default.logLevel
  return { output, name, raster, spaceMinWidth, logLevel }

/-- The settings in a document, none if it is not TOML or a setting is unusable. -/
def parse? (text : String) : Option Settings := do
  ofEntries? (← Toml.parse? text.toList)

/-! ### Together with the command line -/

/-- The file to write and the name of the font for an input file, where a given
`output` or `name` wins over the settings. -/
def resolve (settings : Settings) (output name : Option String) (input : String) :
    String × String :=
  (output.getD settings.output,
    (name.orElse fun _ => settings.name).getD (String.ofList (nameFromPath input.toList)))

end Settings

end BitmapFont
