import BitmapFont.Error
import BitmapFont.Path

/-!
Files.

A file store holds the files of a working directory and of the directories above
it. Paths are looked up as the system does it, component by component: a path that
goes on after a file or after nothing is refused, and so is one that names a
directory. Main fact: `read_write` says that a file that was written reads back.
-/

namespace BitmapFont

/-- A directory that a path can lead to. The working directory is taken to lie
deeper than paths climb, so the root is none of the directories above it. -/
inductive Directory where
  /-- The directory so many levels above the working directory. -/
  | above (levels : Nat)
  /-- The directory that slashes at the front of a path stand for. -/
  | root
deriving DecidableEq, Repr

namespace Directory

/-- The directory that paths start from. -/
def working : Directory := .above 0

/-- The directory above. The root has none but itself. -/
def parent : Directory → Directory
  | .above levels => .above (levels + 1)
  | .root => .root

end Directory

/-- Where a file stands. -/
structure Location where
  directory : Directory
  name : String
deriving DecidableEq, Repr

/-- Files, each with its location and its bytes. -/
structure FileStore where
  entries : List (Location × List UInt8)
deriving DecidableEq

namespace FileStore

def empty : FileStore :=
  { entries := [] }

/-- The store of some files in the working directory, each a name and its bytes. -/
def ofFiles (files : List (String × List UInt8)) : FileStore :=
  { entries := files.map fun (name, bytes) => ({ directory := .working, name }, bytes) }

def workingFiles (files : FileStore) : List (String × List UInt8) :=
  files.entries.filterMap fun (location, bytes) =>
    if location.directory = .working then some (location.name, bytes) else none

def find? (files : FileStore) (location : Location) : Option (List UInt8) :=
  files.entries.lookup location

/-- The store with the file at a location written. -/
def put (files : FileStore) (location : Location) (bytes : List UInt8) : FileStore :=
  { entries := (location, bytes) :: files.entries.filter fun entry => entry.1 != location }

/-- What a path leads to. -/
inductive Place where
  | directory
  /-- A location, with or without a file. -/
  | entry (location : Location)
  /-- A name that a slash marks as a directory, which it is not: nothing can be read
  there, for the given reason. -/
  | noDirectory (cause : IoError)
  /-- Nothing, for the given reason. -/
  | refused (cause : IoError)
deriving DecidableEq

/-- Longest path that the system looks up, in bytes. -/
def maxPathBytes : Nat := 4095

/-- Longest name of a directory entry, in bytes. -/
def maxNameBytes : Nat := 255

/-- Why a path does not lead through a location. -/
def obstacle (files : FileStore) (location : Location) : IoError :=
  if location.name.utf8ByteSize > maxNameBytes then .nameTooLong
  else if (files.find? location).isSome then .notDirectory
  else .notFound

/-- Follows the parts of a path from a directory. -/
def follow (files : FileStore) (directory : Directory) : List (List Char) → Place
  | [] => .directory
  | part :: rest =>
    if part = [] ∨ part = ['.'] then follow files directory rest
    else if part = ['.', '.'] then follow files directory.parent rest
    else
      let location : Location := { directory, name := String.ofList part }
      if rest = [] then
        if location.name.utf8ByteSize > maxNameBytes then .refused .nameTooLong
        else .entry location
      else if rest.all (· = []) then .noDirectory (files.obstacle location)
      else .refused (files.obstacle location)

/-- What a path leads to. -/
def locate (files : FileStore) (path : String) : Place :=
  if path = "" then .refused .notFound
  else if path.toList.contains '\x00' then .refused .nulInPath
  else if path.utf8ByteSize > maxPathBytes then .refused .nameTooLong
  else
    files.follow (if path.toList.head? = some '/' then .root else .working)
      (Path.split path.toList)

def read (files : FileStore) (path : String) : Except IoError (List UInt8) :=
  match files.locate path with
  | .directory => .error .isDirectory
  | .noDirectory cause => .error cause
  | .refused cause => .error cause
  | .entry location =>
    match files.find? location with
    | some bytes => .ok bytes
    | none => .error .notFound

/-- The store after writing the file at a path. A path that a slash marks as a
directory is refused as such, whatever there is. -/
def write (files : FileStore) (path : String) (bytes : List UInt8) :
    Except IoError FileStore :=
  match files.locate path with
  | .directory => .error .isDirectory
  | .noDirectory _ => .error .isDirectory
  | .refused cause => .error cause
  | .entry location => .ok (files.put location bytes)

@[simp] theorem find?_put (files : FileStore) (location : Location) (bytes : List UInt8) :
    (files.put location bytes).find? location = some bytes := by
  simp [put, find?]

private theorem follow_entry {files : FileStore} {location : Location}
    {parts : List (List Char)} (other : FileStore) :
    ∀ {directory : Directory}, files.follow directory parts = .entry location →
      other.follow directory parts = .entry location := by
  induction parts with
  | nil => intro directory h; simp [follow] at h
  | cons part rest ih =>
    intro directory h
    unfold follow at h ⊢
    by_cases skip : part = [] ∨ part = ['.']
    · rw [if_pos skip] at h ⊢
      exact ih h
    rw [if_neg skip] at h ⊢
    by_cases up : part = ['.', '.']
    · rw [if_pos up] at h ⊢
      exact ih h
    rw [if_neg up] at h ⊢
    by_cases last : rest = []
    · simp only [if_pos last] at h ⊢
      exact h
    · simp only [if_neg last] at h
      split at h <;> simp at h

private theorem locate_entry {files : FileStore} {location : Location} {path : String}
    (h : files.locate path = .entry location) (other : FileStore) :
    other.locate path = .entry location := by
  unfold locate at h ⊢
  split at h
  · simp at h
  · rename_i nonempty
    rw [if_neg nonempty]
    split at h
    · simp at h
    · rename_i noNul
      rw [if_neg noNul]
      split at h
      · simp at h
      · rename_i short
        rw [if_neg short]
        exact follow_entry other h

/-- A file that was written reads back. -/
theorem read_write {files written : FileStore} {path : String} {bytes : List UInt8}
    (h : files.write path bytes = .ok written) : written.read path = .ok bytes := by
  unfold write at h
  split at h
  · simp at h
  · simp at h
  · simp at h
  · rename_i location place
    have eq : written = files.put location bytes := (Except.ok.inj h).symm
    subst eq
    unfold read
    rw [locate_entry place]
    simp

end FileStore

/-! ### Access to files -/

/-- The means to read and write files within some kind of computation. -/
structure FileAccess (m : Type → Type) where
  read : (path : String) → m (Except IoError (List UInt8))
  write : (path : String) → (bytes : List UInt8) → m (Except IoError Unit)

/-- Access to the files of a store that the computation carries along. -/
def FileStore.access : FileAccess (StateM FileStore) where
  read path := do
    return (← get).read path
  write path bytes := do
    match (← get).write path bytes with
    | .ok files => set files; return .ok ()
    | .error cause => return .error cause

end BitmapFont
