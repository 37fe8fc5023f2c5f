import BitmapFont.Error

/-!
Reading fields off a byte stream.

A reader takes bytes from the front of what is left and keeps count of how many
it has taken, because a stream that ends too early is reported with the offset
at which the unfinished field starts. Main fact: `splitAt?_eq` says that a field
of `n` bytes is read exactly if `n` bytes are left.
-/

namespace BitmapFont.FontStream

/-- A position in a stream: the bytes left and the number of bytes taken. -/
structure Cursor where
  rest : List UInt8
  offset : Nat

/-- A computation that reads fields. -/
abbrev Reader := StateT Cursor (Except FormatError)

/-- The first `n` bytes and the bytes after them, if there are that many. -/
def splitAt? : Nat → List UInt8 → Option (List UInt8 × List UInt8)
  | 0, rest => some ([], rest)
  | _ + 1, [] => none
  | n + 1, b :: rest => (splitAt? n rest).map fun (field, rest) => (b :: field, rest)

/-- A field is read exactly if the stream holds all of its bytes. -/
theorem splitAt?_eq (n : Nat) (bytes : List UInt8) :
    splitAt? n bytes = if n ≤ bytes.length then some (bytes.take n, bytes.drop n) else none := by
  induction n generalizing bytes with
  | zero => simp [splitAt?]
  | succ n ih =>
    cases bytes with
    | nil => simp [splitAt?]
    | cons b rest =>
      simp only [splitAt?, ih, List.length_cons, Nat.add_le_add_iff_right]
      split <;> simp

namespace Reader

/-- Reads a field of `n` bytes. -/
def bytes (n : Nat) : Reader (List UInt8) := fun cursor =>
  match splitAt? n cursor.rest with
  | none => .error (.truncated cursor.offset)
  | some (field, rest) => .ok (field, { rest, offset := cursor.offset + n })

def byte : Reader UInt8 := fun cursor =>
  match cursor.rest with
  | [] => .error (.truncated cursor.offset)
  | b :: rest => .ok (b, { rest, offset := cursor.offset + 1 })

/-- Reads a two-byte number, low byte first. -/
def word : Reader Nat := fun cursor =>
  match cursor.rest with
  | low :: high :: rest =>
    .ok (low.toNat + 256 * high.toNat, { rest, offset := cursor.offset + 2 })
  | _ => .error (.truncated cursor.offset)

/-- Fails for a cause other than the end of the stream. -/
def fail {α : Type} (cause : FormatError) : Reader α := fun _ =>
  .error cause

end Reader

end BitmapFont.FontStream
