import Miaou.CommandLine.Run

/-!
The command line program: it reads the one file that the arguments name and shows the outcome.
-/

namespace Miaou.CommandLine

/-- A directory can be opened and fails only when it is read, which no longer tells its name. -/
def readErrorOf : IO.Error → ReadError
  | .noFileOrDirectory .. => .missing
  | .permissionDenied .. => .denied
  | .inappropriateType none .. => .isDirectory
  | .inappropriateType (some _) .. => .notDirectory
  | .invalidArgument .. => .nameTooLong
  | e => .other (toString e)

def readFile (path : String) : IO (Except ReadError String) := do
  try
    let content ← IO.FS.readBinFile path
    match String.fromUTF8? content with
    | some text => return .ok text
    | none => return .error .notText
  catch e => return .error (readErrorOf e)

def Command.file? : Command → Option String
  | .check file => some file
  | .tokens file => some file
  | .ast file => some file
  | .explain _ => none

end Miaou.CommandLine

open Miaou.CommandLine in
def main (arguments : List String) : IO UInt32 := do
  let content ← match Miaou.Bundled.arguments arguments with
    | .ok (command, _) =>
      match command.file? with
      | some file => readFile file
      | none => pure (.error .missing)
    | .error _ => pure (.error .missing)
  let outcome := run (fun _ => content) arguments
  IO.print outcome.out
  IO.eprint outcome.err
  return outcome.status.toUInt32
