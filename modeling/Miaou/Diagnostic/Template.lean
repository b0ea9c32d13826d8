/-!
Message templates. A placeholder is a name in braces; `substitute` puts the values of the known
names in place of their placeholders, all at once, and leaves everything else as it stands.
-/

namespace Miaou.Template

def openBrace : Char := '\x7b'

def closeBrace : Char := '\x7d'

def placeholder (name : String) : String :=
  String.ofList (openBrace :: (name.toList ++ [closeBrace]))

def value? (vars : List (String × String)) (name : String) : Option String := vars.lookup name

/-- The value for the placeholder whose opening brace has just been passed, and the number of
characters it takes from there. -/
def known? (vars : List (String × String)) (cs : List Char) : Option (String × Nat) :=
  let name := cs.takeWhile (· ≠ closeBrace)
  if name.length < cs.length then
    (value? vars (String.ofList name)).map fun value => (value, name.length + 1)
  else none

def fill (vars : List (String × String)) : List Char → List Char
  | [] => []
  | c :: cs =>
    if c = openBrace then
      match known? vars cs with
      | some (value, size) => value.toList ++ fill vars (cs.drop size)
      | none => c :: fill vars cs
    else c :: fill vars cs
termination_by cs => cs.length
decreasing_by
  all_goals simp only [List.length_cons, List.length_drop]
  all_goals omega

def substitute (vars : List (String × String)) (template : String) : String :=
  String.ofList (fill vars template.toList)

end Miaou.Template
