import BitmapFont.Cli.Run

/-!
The program: runs the command line on the files of the system.
-/

namespace BitmapFont.Program

/-- The reason that the system gives for a refusal. -/
def causeOf (e : IO.Error) : IoError :=
  match e with
  | .noFileOrDirectory .. => .notFound
  | .inappropriateType .. => .isDirectory
  | e => .other (toString e)

def access : FileAccess IO where
  read path := do
    try
      let bytes ← IO.FS.readBinFile path
      return .ok bytes.toList
    catch e => return .error (causeOf e)
  write path bytes := do
    try
      IO.FS.writeBinFile path ⟨bytes.toArray⟩
      return .ok ()
    catch e => return .error (causeOf e)

end BitmapFont.Program

open BitmapFont in
/-- Carries out a command line and ends with its exit code. -/
def main (words : List String) : IO UInt32 := do
  let ending ← Cli.run Program.access OutlineFormat.builtIn words
  IO.print ending.stdout
  IO.eprint ending.stderr
  return UInt32.ofNat ending.exitCode
