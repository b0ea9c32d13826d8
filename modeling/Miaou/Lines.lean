/-!
The lines of a text, as they are shown to a reader. A line feed ends a line and belongs to none;
a carriage return right before it is not shown.
-/

namespace Miaou.Lines

/-- Cuts at every line feed, so there is always one line more than there are line feeds. -/
def cut (cs : List Char) : List (List Char) := cs.splitOn '\n'

def dropReturn (line : List Char) : List Char :=
  if line.getLast? = some '\r' then line.dropLast else line

def ofText (text : String) : List String :=
  (cut text.toList).map fun line => String.ofList (dropReturn line)

def get? (lines : List String) : Nat → Option String
  | 0 => none
  | n + 1 => lines[n]?

theorem cut_ne_nil (cs : List Char) : cut cs ≠ [] := List.splitOn_ne_nil '\n' cs

end Miaou.Lines
