import BitmapFont.Change
import BitmapFont.Font.Basic

/-!
Commands to a font.

Every request that can change a font or one of its sequences is a value, and it is
carried out in place. Whatever a request to a sequence leaves behind stays in the
font, also if it fails. Storing several glyphs goes through them twice: the first
time all of them are checked, the second time they are written.
-/

namespace BitmapFont

/-- A request to a sequence. -/
inductive SequenceCommand where
  | setBaseline (baseline : UInt8)
  | setPointSize (pointSize : UInt8)
  /-- Stores a glyph under a codepoint. -/
  | setGlyph (codepoint : UInt8) (glyph : Glyph)
  /-- Replaces a glyph by its image. -/
  | modifyGlyph (codepoint : UInt8) (f : Glyph → Glyph)
  /-- Stores several glyphs, each under its own codepoint. -/
  | replaceGlyphs (glyphs : List Glyph)
  | copyGlyphsFrom (source : Sequence)

/-- A request to a font. -/
inductive FontCommand where
  | setName (name : String)
  | push (sequence : Sequence)
  | remove (index : Nat)
  | restore (sequences : List Sequence)
  /-- Makes a request to the sequence at an index. -/
  | edit (index : Nat) (command : SequenceCommand)

/-- What a font answers to a request. -/
inductive FontReply where
  | done
  /-- The index of a new sequence. -/
  | index (index : Nat)
  | removed (sequence : Sequence)
  /-- There is no sequence to make the request to. -/
  | noSequence

namespace SequenceCommand

/-- Fails for a glyph that is not as high as the sequence. -/
def checkHeight (g : Glyph) : Change Sequence Unit := do
  let s ← get
  if g.height = s.height then
    return
  else
    throw (s.heightMismatch g)

/-- Stores a glyph that was checked under its own codepoint. -/
def insert (g : Glyph) : Change Sequence Unit :=
  modify (·.insert g)

def run : SequenceCommand → Change Sequence Unit
  | setBaseline baseline => do
    set (← (← get).setBaseline baseline)
  | setPointSize pointSize => modify (·.setPointSize pointSize)
  | setGlyph codepoint glyph => do
    set (← (← get).setGlyph codepoint glyph)
  | modifyGlyph codepoint f => do
    set (← (← get).modifyGlyph codepoint f)
  | replaceGlyphs glyphs => do
    forM glyphs checkHeight
    forM glyphs insert
  | copyGlyphsFrom source => modify (·.copyGlyphsFrom source)

end SequenceCommand

namespace FontCommand

/-- Makes a request to the sequence at an index. -/
def runAt (index : Nat) (command : SequenceCommand) : Change Font FontReply := do
  match (← get).sequence? index with
  | none => return .noSequence
  | some s =>
    command.run.inside (fun _ => s) fun f changed => f.setSequence index changed
    return .done

def run : FontCommand → Change Font FontReply
  | setName name => do
    let name ← FontName.ofText name
    modify fun f => { f with name }
    return .done
  | push sequence => do
    let f ← get
    set (f.push sequence)
    return .index f.sequenceCount
  | remove index => do
    let (f, removed) ← (← get).removeSequence index
    set f
    return .removed removed
  | restore sequences => do
    set (← (← get).restoreSequences sequences)
    return .done
  | edit index command => runAt index command

end FontCommand

end BitmapFont
