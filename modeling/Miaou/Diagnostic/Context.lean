import Miaou.Text.Blank

/-!
The lines around a fault that are shown with it.
-/

namespace Miaou

structure ContextLine where
  number : Nat
  text : String
  isFault : Bool
  deriving DecidableEq, Repr

/-- The lines at most `radius` away from the line of the fault, without blanks at their ends. -/
def contextAround (lines : List String) (line radius : Nat) : List ContextLine :=
  if line = 0 then []
  else
    ((lines.zipIdx 1).filter fun (_, n) => line ≤ n + radius && n ≤ line + radius).map
      fun (text, n) => ⟨n, String.ofList (Text.trimRight text.toList), n = line⟩

end Miaou
