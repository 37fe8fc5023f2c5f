import BitmapFont.Edit.Session

/-!
Commands of an editing session.

Every request that can change a session is a value, so a run is a list of
commands. A command acts on the session and on the file store in place.
-/

namespace BitmapFont

/-- A request to an editing session. -/
inductive Command where
  | transform (range : CodepointRange) (batch : Batch)
  | setPixel (codepoint : UInt8) (x y : Int) (value : Bool)
  | togglePixel (codepoint : UInt8) (x y : Int)
  | clearGlyph (codepoint : UInt8)
  | cloneGlyph (source target : UInt8)
  | resizeGlyphWidth (codepoint width : UInt8)
  | addSequence (height baseline pointSize : UInt8)
  | importSequence (sequence : Sequence)
  | importSequences (sequences : List Sequence)
  | removeSequence (index : Nat)
  | copySequenceToAll
  | setBaseline (baseline : UInt8)
  | setPointSize (pointSize : UInt8)
  | fixSpaceWidth (minWidth : UInt8)
  | setActiveSequence (index : Nat)
  | setFontName (name : String)
  | markClean
  | undo
  | redo
  | save
  | saveAs (path : String)
  | load (path : String)

/-- What a command answers. -/
inductive Reply where
  | done
  /-- The index of a sequence or a number of sequences. -/
  | number (n : Nat)
  | outcome (outcome : HistoryOutcome)
deriving DecidableEq

/-- A session together with the files that it can read and write. -/
structure Desk where
  files : FileStore
  session : Session

namespace Desk

/-- A change of the session of the desk. Its answer is put into words of a reply. -/
def onSession {α : Type} (reply : α → Reply) (c : Change Session α) : Change Desk Reply := do
  return reply (← c.inside Desk.session fun d session => { d with session })

/-- Carries out a command. -/
def run : Command → Change Desk Reply
  | .transform range batch => onSession (fun _ => .done) (Session.transform range batch)
  | .setPixel codepoint x y value =>
    onSession (fun _ => .done) (Session.setPixel codepoint x y value)
  | .togglePixel codepoint x y => onSession (fun _ => .done) (Session.togglePixel codepoint x y)
  | .clearGlyph codepoint => onSession (fun _ => .done) (Session.clearGlyph codepoint)
  | .cloneGlyph source target => onSession (fun _ => .done) (Session.cloneGlyph source target)
  | .resizeGlyphWidth codepoint width =>
    onSession (fun _ => .done) (Session.resizeGlyphWidth codepoint width)
  | .addSequence height baseline pointSize =>
    onSession .number (Session.addSequence height baseline pointSize)
  | .importSequence sequence => onSession .number (Session.importSequence sequence)
  | .importSequences sequences => onSession .number (Session.importSequences sequences)
  | .removeSequence index => onSession (fun _ => .done) (Session.removeSequence index)
  | .copySequenceToAll => onSession (fun _ => .done) Session.copySequenceToAll
  | .setBaseline baseline => onSession (fun _ => .done) (Session.setBaseline baseline)
  | .setPointSize pointSize => onSession (fun _ => .done) (Session.setPointSize pointSize)
  | .fixSpaceWidth minWidth => onSession .number (Session.fixSpaceWidth minWidth)
  | .setActiveSequence index => onSession (fun _ => .done) (Session.setActiveSequence index)
  | .setFontName name => onSession (fun _ => .done) (Session.setFontName name)
  | .markClean => onSession (fun _ => .done) Session.markClean
  | .undo => onSession .outcome Session.undo
  | .redo => onSession .outcome Session.redo
  | .save => do
    let d ← get
    let (files, session) ← d.session.save d.files
    set { files, session : Desk }
    return .done
  | .saveAs path => do
    let d ← get
    let (files, session) ← d.session.saveAs d.files path
    set { files, session : Desk }
    return .done
  | .load path => do
    let d ← get
    let session ← Session.load d.files path
    set { d with session }
    return .done

end Desk

end BitmapFont
