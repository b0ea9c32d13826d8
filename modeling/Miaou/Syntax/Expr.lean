import Miaou.Position
import Miaou.Number.Style
import Miaou.Text.Quoted
import Miaou.Text.Separated

/-!
Expressions and their printed form. Every operation is printed inside parentheses of its own, so
the text tells how the expression was read: `a - b - c` prints as `((a - b) - c)`.
-/

namespace Miaou

inductive Literal where
  | int (value : Int)
  | float (value : Binary64)
  | str (value : String)
  | bool (value : Bool)
  deriving DecidableEq, Repr

inductive BinaryOp where
  | or | and
  | eq | eqEq | notEq | lt | gt | ltEq | gtEq
  | add | sub | mul | div | floorDiv | mod | pow
  deriving DecidableEq, Repr

inductive UnaryOp where
  | not | neg | plus
  deriving DecidableEq, Repr

/-- An expression with the place where it begins. A call keeps the printed path of the function
it calls. -/
inductive Expr where
  | literal (pos : Position) (value : Literal)
  | identifier (pos : Position) (name : String)
  | binary (pos : Position) (op : BinaryOp) (left right : Expr)
  | unary (pos : Position) (op : UnaryOp) (operand : Expr)
  | call (pos : Position) (function : String) (arguments : List Expr)
  | list (pos : Position) (items : List Expr)
  | dict (pos : Position) (entries : List (Expr × Expr))
  | item (pos : Position) (object index : Expr)
  | attribute (pos : Position) (object : Expr) (name : String)
  deriving Repr, BEq

namespace Literal

def text : Literal → String
  | .int n => String.ofList (Digits.ofInt n)
  | .float x => NumberStyle.literal.text x
  | .str s => String.ofList (Text.script s.toList)
  | .bool true => "vrai"
  | .bool false => "faux"

def typeName : Literal → String
  | .int _ => "number"
  | .float _ => "number"
  | .str _ => "string"
  | .bool _ => "boolean"

end Literal

namespace BinaryOp

def text : BinaryOp → String
  | .or => "ou"
  | .and => "et"
  | .eq => "="
  | .eqEq => "=="
  | .notEq => "!="
  | .lt => "<"
  | .gt => ">"
  | .ltEq => "<="
  | .gtEq => ">="
  | .add => "+"
  | .sub => "-"
  | .mul => "*"
  | .div => "/"
  | .floorDiv => "//"
  | .mod => "%"
  | .pow => "**"

def isComparison : BinaryOp → Bool
  | .eq | .eqEq | .notEq | .lt | .gt | .ltEq | .gtEq => true
  | _ => false

end BinaryOp

def UnaryOp.text : UnaryOp → String
  | .not => "non"
  | .neg => "-"
  | .plus => "+"

/-- The operator as it stands before its operand; a word needs a blank. -/
def UnaryOp.lead : UnaryOp → String
  | .not => "non "
  | .neg => "-"
  | .plus => "+"

namespace Expr

def position : Expr → Position
  | .literal pos _ => pos
  | .identifier pos _ => pos
  | .binary pos _ _ _ => pos
  | .unary pos _ _ => pos
  | .call pos _ _ => pos
  | .list pos _ => pos
  | .dict pos _ => pos
  | .item pos _ _ => pos
  | .attribute pos _ _ => pos

mutual

def text : Expr → String
  | .literal _ value => value.text
  | .identifier _ name => name
  | .binary _ op left right => "(" ++ left.text ++ " " ++ op.text ++ " " ++ right.text ++ ")"
  | .unary _ op operand => "(" ++ op.lead ++ operand.text ++ ")"
  | .call _ function arguments =>
    function ++ "(" ++ Text.separated ", " (texts arguments) ++ ")"
  | .list _ items => "liste(" ++ Text.separated ", " (texts items) ++ ")"
  | .dict _ entries => "dictionnaire(" ++ Text.separated ", " (entryTexts entries) ++ ")"
  | .item _ object index => object.text ++ "[" ++ index.text ++ "]"
  | .attribute _ object name => object.text ++ "." ++ name

def texts : List Expr → List String
  | [] => []
  | e :: es => e.text :: texts es

def entryTexts : List (Expr × Expr) → List String
  | [] => []
  | (key, value) :: entries => (key.text ++ ": " ++ value.text) :: entryTexts entries

end

/-- The path by which an expression names a function; only names and attributes are paths. -/
def path? : Expr → Option String
  | .identifier _ name => some name
  | .attribute pos object name => some (text (.attribute pos object name))
  | _ => none

end Expr

end Miaou
