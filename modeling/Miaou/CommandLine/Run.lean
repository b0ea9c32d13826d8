import Miaou.Bundled.Arguments
import Miaou.Bundled.Drawing
import Miaou.Bundled.JsonText

/-!
The program with the libraries that are bundled with it. They stand in for the libraries of the
host, which may do more; no more of them is needed than to run the program.
-/

namespace Miaou

def Bundled.libraries : CommandLine.Libraries where
  arguments := arguments
  encode json := .whole json.pretty
  draw report source := .whole (draw report source)

/-- The program over some files; what it says does not go to a terminal. -/
def CommandLine.run (read : String → Except ReadError String) (arguments : List String) : Outcome :=
  respond Bundled.libraries ⟨read, false⟩ arguments

end Miaou
