import BitmapFont.Edit.Batch
import BitmapFont.Edit.History
import BitmapFont.Font.File

/-!
Editing sessions.

A session holds a font, its undo history, and the index of the active sequence,
the one that glyph operations apply to. Operations change the session in place. A
recorded one checks its arguments, takes a snapshot of the font, and then writes;
some write through functions that could still fail. The font name is not part of
the history.
-/

namespace BitmapFont

structure Session where
  font : Font
  history : History
  /-- Index of the sequence that glyph operations apply to. -/
  active : Nat
  /-- The file that the font was loaded from or last saved to. -/
  filePath : Option String
  /-- Whether the font may differ from its file. -/
  dirty : Bool
  active_lt : active < font.sequences.length

namespace Session

/-! ### Starting a session -/

/-- A session on a font without a file. -/
def ofFont (font : Font) : Session where
  font := font
  history := .new
  active := 0
  filePath := none
  dirty := false
  active_lt := font.sequenceCount_pos

def new : Session :=
  ofFont .untitled

/-- A session on the font in a file. -/
def load (files : FileStore) (path : String) : Except FontError Session := do
  return { ofFont (← Font.load files path) with filePath := some path }

/-! ### Reading a session -/

def activeSequence (s : Session) : Sequence :=
  s.font.sequences.get ⟨s.active, s.active_lt⟩

def glyph (s : Session) (codepoint : UInt8) : Glyph :=
  s.activeSequence.glyph codepoint

/-! ### Saving -/

/-- Saves the font at a path and keeps that path. -/
def saveAs (s : Session) (files : FileStore) (path : String) :
    Except FontError (FileStore × Session) := do
  let files ← s.font.save files path
  return (files, { s with filePath := some path, dirty := false })

/-- Saves the font to its file. -/
def save (s : Session) (files : FileStore) : Except FontError (FileStore × Session) :=
  match s.filePath with
  | none => .error (.argument .noFilePath)
  | some path => s.saveAs files path

/-! ### Recording and writing -/

/-- The session after a snapshot of its font under a description. -/
def recorded (s : Session) (description : String) : Session :=
  { s with history := s.history.snapshot description s.font, dirty := true }

@[simp] theorem recorded_font (s : Session) (description : String) :
    (s.recorded description).font = s.font := rfl

@[simp] theorem recorded_activeSequence (s : Session) (description : String) :
    (s.recorded description).activeSequence = s.activeSequence := rfl

def record (description : String) : Change Session Unit :=
  modify (·.recorded description)

/-- The session with other sequences, as many as before. -/
def withSequences (s : Session) (sequences : List Sequence)
    (length : sequences.length = s.font.sequences.length) : Session :=
  { s with
    font := { s.font with
      sequences
      nonempty := List.ne_nil_of_length_pos (by
        rw [length]
        exact s.font.sequenceCount_pos) }
    active_lt := by
      rw [length]
      exact s.active_lt }

def putActive (sequence : Sequence) : Change Session Unit :=
  modify fun s => s.withSequences (s.font.sequences.set s.active sequence) List.length_set

/-- Changes every sequence, each seen with its index. -/
def eachSequence {α : Type} (c : Nat → Change Sequence α) : Change Session (List α) :=
  ExceptT.mk fun s =>
    let done := Change.eachFrom c 0 s.font.sequences
    (done.1, s.withSequences done.2 (Change.length_eachFrom c 0 s.font.sequences))

/-- Appends sequences and makes the first of them active. Its index is returned. -/
def append (first : Sequence) (rest : List Sequence) : Change Session Nat := do
  let s ← get
  set { s with
    font := rest.foldl Font.push (s.font.push first)
    active := s.font.sequenceCount
    active_lt := Font.sequenceCount_lt_foldl_push s.font first rest }
  return s.font.sequenceCount

/-! ### Glyphs of the active sequence -/

/-- Applies a batch transform to a range of codepoints. -/
def transform (range : CodepointRange) (t : Batch) : Change Session Unit := do
  let updated ← t.sequence range (← get).activeSequence
  record t.description
  putActive updated

/-- Replaces one glyph of the active sequence by its image. -/
def changeGlyph (description : String) (codepoint : UInt8)
    (change : Glyph → Except FontError Glyph) : Change Session Unit := do
  let active := (← get).activeSequence
  let glyph ← change (active.glyph codepoint)
  let updated ← active.setGlyph codepoint glyph
  record description
  putActive updated

/-- The pixel position that two signed coordinates name in a glyph. -/
def position? (g : Glyph) (x y : Int) : Option (Nat × Nat) :=
  if 0 ≤ x ∧ 0 ≤ y ∧ g.InBounds x.toNat y.toNat then some (x.toNat, y.toNat) else none

/-- Sets or clears one pixel. A position outside the glyph is ignored. -/
def setPixel (codepoint : UInt8) (x y : Int) (value : Bool) : Change Session Unit := do
  match position? ((← get).glyph codepoint) x y with
  | none => return
  | some (x, y) => changeGlyph "Edit pixel" codepoint fun g => .ok (g.setPixel x y value)

/-- Flips one pixel. A position outside the glyph is ignored. -/
def togglePixel (codepoint : UInt8) (x y : Int) : Change Session Unit := do
  let g := (← get).glyph codepoint
  match position? g x y with
  | none => return
  | some (column, row) => setPixel codepoint x y !(g.pixel column row)

def clearGlyph (codepoint : UInt8) : Change Session Unit :=
  changeGlyph "Clear glyph" codepoint fun g => .ok (.blank g.codepoint g.width g.height)

/-- Stores the bitmap of one codepoint under another. -/
def cloneGlyph (source target : UInt8) : Change Session Unit := do
  let copy := ((← get).glyph source).withCodepoint target
  changeGlyph "Clone glyph" target fun _ => .ok copy

def resizeGlyphWidth (codepoint width : UInt8) : Change Session Unit :=
  changeGlyph "Resize glyph" codepoint fun g => g.setWidth width

/-! ### Sequences -/

/-- Appends an empty sequence and makes it active. Its index is returned. -/
def addSequence (height baseline pointSize : UInt8) : Change Session Nat := do
  let sequence ← Sequence.empty height baseline pointSize
  record "Add sequence"
  append sequence []

/-- Appends an imported sequence and makes it active. Its index is returned. -/
def importSequence (sequence : Sequence) : Change Session Nat := do
  record "Import sequence"
  append sequence []

/-- Appends several imported sequences in one change. The first of them becomes
active, and its index is returned. -/
def importSequences (sequences : List Sequence) : Change Session Nat :=
  match sequences with
  | [] => throw (.argument .nothingToImport)
  | first :: rest => do
    record "Import sequences"
    append first rest

/-- An active index for a list that has shrunk. -/
def clampActive (active count : Nat) : Nat :=
  min active (count - 1)

theorem clampActive_lt {active count : Nat} (pos : 0 < count) :
    clampActive active count < count := by
  unfold clampActive; omega

/-- The session with another font. The active index is kept inside it. -/
def withFont (s : Session) (font : Font) : Session :=
  { s with
    font
    active := clampActive s.active font.sequenceCount
    active_lt := clampActive_lt font.sequenceCount_pos }

/-- Removes a sequence. The last remaining one stays. -/
def removeSequence (index : Nat) : Change Session Unit := do
  let count := (← get).font.sequenceCount
  if count ≤ index then
    throw (.argument (.sequenceIndex index count))
  else if count = 1 then
    throw .lastSequence
  else
    record "Remove sequence"
    let (font, _) ← (← get).font.removeSequence index
    modify (·.withFont font)

/-- Overwrites every other sequence with the active one. Point sizes stay. -/
def copySequenceToAll : Change Session Unit := do
  let source := (← get).activeSequence
  let active := (← get).active
  record "Copy sequence to all"
  let _ ← eachSequence fun index =>
    if index = active then pure () else modify (·.copyGlyphsFrom source)

def setBaseline (baseline : UInt8) : Change Session Unit := do
  let height := (← get).activeSequence.height
  if height.toNat ≤ baseline.toNat then
    throw (.argument (.baselineTooLow baseline.toNat height.toNat))
  else
    record "Set baseline"
    putActive (← (← get).activeSequence.setBaseline baseline)

def setPointSize (pointSize : UInt8) : Change Session Unit :=
  if pointSize = 0 then
    throw (.argument .zeroPointSize)
  else do
    record "Set point size"
    putActive ((← get).activeSequence.setPointSize pointSize)

/-- Widens the space of a sequence to at least a width. Whether it was narrower is
returned. -/
def widenSpace (minWidth : UInt8) : Change Sequence Bool := do
  let s ← get
  if (s.glyph spaceCodepoint).width < minWidth then
    set (← s.modifyGlyph spaceCodepoint fun space => .blank spaceCodepoint minWidth space.height)
    return true
  else
    return false

/-- Widens the space of every sequence to at least a width. The number of widened
spaces is returned. -/
def fixSpaceWidth (minWidth : UInt8) : Change Session Nat :=
  if minWidth = 0 then
    throw (.argument .zeroWidth)
  else do
    record "Fix space width"
    return (← eachSequence fun _ => widenSpace minWidth).countP id

/-! ### Unrecorded changes -/

def setActiveSequence (index : Nat) : Change Session Unit := do
  let s ← get
  if inside : index < s.font.sequences.length then
    set { s with active := index, active_lt := inside }
  else
    throw (.argument (.sequenceIndex index s.font.sequences.length))

def setFontName (name : String) : Change Session Unit := do
  let name ← FontName.ofText name
  modify fun s => { s with font := { s.font with name }, dirty := true }

def markClean : Change Session Unit :=
  modify fun s => { s with dirty := false }

/-! ### Undo and redo -/

/-- Lets the history change the font. -/
def restoring (request : Change (History × Font) HistoryOutcome) :
    Change Session HistoryOutcome := do
  let outcome ← request.inside (fun s => (s.history, s.font))
    fun s (history, font) => { s.withFont font with history }
  match outcome with
  | .empty => return .empty
  | .applied =>
    modify fun s => { s with dirty := true }
    return .applied

/-- Restores the state before the most recent recorded change. -/
def undo : Change Session HistoryOutcome :=
  restoring History.undo

/-- Restores the most recently undone state. -/
def redo : Change Session HistoryOutcome :=
  restoring History.redo

end Session

end BitmapFont
