import Miaou.Diagnostic.Basic
import Miaou.Grammar.Program
import Miaou.Lines

/-!
The verdict on a script: a result, or the diagnostic of the first fault. The catalog only words
the diagnostic; whether there is a fault does not depend on it.
-/

namespace Miaou

inductive Verdict (α : Type) where
  | accepted (value : α)
  | rejected (diagnostic : Diagnostic)
  /-- The catalog has no definition for the code of the fault. -/
  | unworded (code : Unregistered)
  deriving Repr

namespace Catalog

def verdict {α : Type} (c : Catalog) (file : String) (lines : List String) :
    Except Fault α → Verdict α
  | .ok value => .accepted value
  | .error fault =>
    match c.judge file lines fault with
    | .ok diagnostic => .rejected diagnostic
    | .error code => .unworded code

def tokenize (c : Catalog) (file source : String) : Verdict (List Token) :=
  c.verdict file (Lines.ofText source) (Miaou.tokenize source)

def parse (c : Catalog) (file source : String) : Verdict Program :=
  c.verdict file (Lines.ofText source) (Miaou.parse source)

end Catalog

end Miaou
