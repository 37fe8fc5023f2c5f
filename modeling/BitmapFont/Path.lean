/-!
Slash-separated paths.

A path is a text; its components are what stands between slashes. Empty
components and components `.` name nothing of their own, and `..` names the
directory above.
-/

namespace BitmapFont.Path

/-- What stands between the slashes of a path, empty parts included. -/
def split : List Char → List (List Char)
  | [] => [[]]
  | c :: rest =>
    if c = '/' then [] :: split rest
    else
      match split rest with
      | [] => [[c]]
      | part :: parts => (c :: part) :: parts

/-- The components of a path that name something. -/
def components (path : List Char) : List (List Char) :=
  (split path).filter fun part => part ≠ [] ∧ part ≠ ['.']

/-- The last component of a path, none if it names a directory above or the
path has no components. -/
def fileName? (path : List Char) : Option (List Char) :=
  match (components path).getLast? with
  | some name => if name = ['.', '.'] then none else some name
  | none => none

/-- A file name without its extension: what stands before the last dot. A name
without a dot, or whose only dot comes first, has no extension. -/
def withoutExtension (name : List Char) : List Char :=
  match name.reverse.dropWhile (· ≠ '.') with
  | [] => name
  | _ :: before => if before = [] then name else before.reverse

/-- The extension of a file name: what stands after the last dot. A name without
a dot, or whose only dot comes first, has none. -/
def extension? (name : List Char) : Option (List Char) :=
  match name.reverse.dropWhile (· ≠ '.') with
  | [] => none
  | _ :: before => if before = [] then none else some (name.drop (before.length + 1))

/-- The last component of a path without its extension. -/
def stem? (path : List Char) : Option (List Char) :=
  (fileName? path).map withoutExtension

end BitmapFont.Path
