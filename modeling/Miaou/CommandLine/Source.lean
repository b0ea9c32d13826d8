import Miaou.Diagnostic.Basic

/-!
Why a file may not be readable, and the diagnostic that says so.
-/

namespace Miaou.CommandLine

inductive ReadError where
  | missing
  | denied
  | isDirectory
  | notDirectory
  | nameTooLong
  | notText
  /-- Any other reason, in the words of the host. -/
  | other (reason : String)
  deriving DecidableEq, Repr

namespace ReadError

def code : ReadError → Code
  | .missing => .fileNotFound
  | .denied => .permissionDenied
  | _ => .internalCrash

def reason : ReadError → String
  | .missing => "No such file or directory (os error 2)"
  | .denied => "Permission denied (os error 13)"
  | .isDirectory => "Is a directory (os error 21)"
  | .notDirectory => "Not a directory (os error 20)"
  | .nameTooLong => "File name too long (os error 36)"
  | .notText => "stream did not contain valid UTF-8"
  | .other reason => reason

def diagnostic (c : Catalog) (file : String) (e : ReadError) : Except Unregistered Diagnostic :=
  (c.raise e.code file .start "" none).map fun d =>
    ((d.withVar "filename" file).withVar "reason" e.reason).withInternal e.reason

end ReadError

end Miaou.CommandLine
