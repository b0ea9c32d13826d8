import Miaou.Syntax.Expr

/-!
Statements, whole scripts and their printed form. Blocks are indented by four spaces for each
block around them.
-/

namespace Miaou

inductive Stmt where
  | assign (pos : Position) (name : String) (value : Expr)
  | assignIndex (pos : Position) (object index value : Expr)
  | branch (pos : Position) (condition : Expr) (body : List Stmt)
      (clauses : List (Expr × List Stmt)) (otherwise : Option (List Stmt))
  | whileLoop (pos : Position) (condition : Expr) (body : List Stmt)
  | repeatLoop (pos : Position) (count : Expr) (body : List Stmt)
  | forEach (pos : Position) (name : String) (items : Expr) (body : List Stmt)
  | define (pos : Position) (name : String) (parameters : List String) (body : List Stmt)
  | giveBack (pos : Position) (value : Option Expr)
  | attempt (pos : Position) (body handler : List Stmt)
  | importModule (pos : Position) (name : String)
  | breakLoop (pos : Position)
  | continueLoop (pos : Position)
  | pass (pos : Position)
  | expression (pos : Position) (value : Expr)
  deriving Repr, BEq

structure Program where
  statements : List Stmt
  position : Position
  deriving Repr, BEq

namespace Stmt

def position : Stmt → Position
  | .assign pos _ _ => pos
  | .assignIndex pos _ _ _ => pos
  | .branch pos _ _ _ _ => pos
  | .whileLoop pos _ _ => pos
  | .repeatLoop pos _ _ => pos
  | .forEach pos _ _ _ => pos
  | .define pos _ _ _ => pos
  | .giveBack pos _ => pos
  | .attempt pos _ _ => pos
  | .importModule pos _ => pos
  | .breakLoop pos => pos
  | .continueLoop pos => pos
  | .pass pos => pos
  | .expression pos _ => pos

def isExpression : Stmt → Bool
  | .expression _ _ => true
  | _ => false

def pad (depth : Nat) : String := String.ofList (List.replicate (4 * depth) ' ')

def line (depth : Nat) (text : String) : String := pad depth ++ text ++ "\n"

/-- Statements that print values take them one after another, without parentheses. -/
def expressionText : Expr → String
  | .call pos function arguments =>
    if function = "ecrire" then Text.separated " " ("ecrire" :: Expr.texts arguments)
    else (Expr.call pos function arguments).text
  | e => e.text

mutual

def text (depth : Nat) : Stmt → String
  | .assign _ name value => line depth (name ++ " = " ++ value.text)
  | .assignIndex _ object index value =>
    line depth (object.text ++ "[" ++ index.text ++ "] = " ++ value.text)
  | .branch _ condition body clauses otherwise =>
    line depth ("si " ++ condition.text ++ ":") ++ blockText (depth + 1) body ++
      clausesText depth clauses ++ otherwiseText depth otherwise
  | .whileLoop _ condition body =>
    line depth ("tant que " ++ condition.text ++ ":") ++ blockText (depth + 1) body
  | .repeatLoop _ count body =>
    line depth ("repeter " ++ count.text ++ " fois:") ++ blockText (depth + 1) body
  | .forEach _ name items body =>
    line depth ("pour chaque " ++ name ++ " dans " ++ items.text ++ ":") ++
      blockText (depth + 1) body
  | .define _ name parameters body =>
    line depth ("fonction " ++ name ++ "(" ++ Text.separated ", " parameters ++ "):") ++
      blockText (depth + 1) body
  | .giveBack _ (some value) => line depth ("retour " ++ value.text)
  | .giveBack _ none => line depth "retour"
  | .attempt _ body handler =>
    line depth "essayer:" ++ blockText (depth + 1) body ++
      (line depth "sauf erreur:" ++ blockText (depth + 1) handler)
  | .importModule _ name => line depth ("importer " ++ name)
  | .breakLoop _ => line depth "# break"
  | .continueLoop _ => line depth "# continue"
  | .pass _ => line depth "# pass"
  | .expression _ value => line depth (expressionText value)

def blockText (depth : Nat) : List Stmt → String
  | [] => ""
  | s :: ss => s.text depth ++ blockText depth ss

def clausesText (depth : Nat) : List (Expr × List Stmt) → String
  | [] => ""
  | (condition, body) :: clauses =>
    line depth ("sinon si " ++ condition.text ++ ":") ++ blockText (depth + 1) body ++
      clausesText depth clauses

def otherwiseText (depth : Nat) : Option (List Stmt) → String
  | none => ""
  | some body => line depth "sinon:" ++ blockText (depth + 1) body

end

end Stmt

/-- The printed script; no line feed follows the last line. -/
def Program.text (p : Program) : String :=
  "miaou\n" ++ Stmt.blockText 0 p.statements ++ "meow"

end Miaou
