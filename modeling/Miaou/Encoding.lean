import Miaou.Diagnostic.Basic
import Miaou.Json
import Miaou.Syntax.Stmt
import Miaou.Token.Basic

/-!
The JSON form of tokens, syntax trees, definitions and diagnostics.
-/

namespace Miaou

def Position.json (p : Position) : Json :=
  .object [("line", .int p.line), ("column", .int p.column)]

def Payload.json : Payload → Json
  | .none => .null
  | .bool b => .bool b
  | .int n => .int n
  | .float x => .float x
  | .str s => .str s

def Token.json (t : Token) : Json :=
  .object [("kind", .str t.kind.name), ("value", t.payload.json), ("position", t.position.json)]

def Literal.json : Literal → Json
  | .int n => .object [("Int", .int n)]
  | .float x => .object [("Float", .float x)]
  | .str s => .object [("Str", .str s)]
  | .bool b => .object [("Bool", .bool b)]

def BinaryOp.name : BinaryOp → String
  | .or => "Or"
  | .and => "And"
  | .eq => "Eq"
  | .eqEq => "EqEq"
  | .notEq => "NotEq"
  | .lt => "Lt"
  | .gt => "Gt"
  | .ltEq => "LtEq"
  | .gtEq => "GtEq"
  | .add => "Add"
  | .sub => "Sub"
  | .mul => "Mul"
  | .div => "Div"
  | .floorDiv => "FloorDiv"
  | .mod => "Mod"
  | .pow => "Pow"

def BinaryOp.all : List BinaryOp :=
  [.or, .and, .eq, .eqEq, .notEq, .lt, .gt, .ltEq, .gtEq, .add, .sub, .mul, .div, .floorDiv,
    .mod, .pow]

def BinaryOp.ofName? (name : String) : Option BinaryOp := all.find? fun op => op.name = name

def UnaryOp.name : UnaryOp → String
  | .not => "Not"
  | .neg => "Neg"
  | .plus => "Plus"

def UnaryOp.all : List UnaryOp := [.not, .neg, .plus]

def UnaryOp.ofName? (name : String) : Option UnaryOp := all.find? fun op => op.name = name

def nodeJson (kind : Json) (pos : Position) : Json :=
  .object [("kind", kind), ("position", pos.json)]

def kindJson (name : String) (parts : List (String × Json)) : Json :=
  .object [(name, .object parts)]

namespace Expr

mutual

def json : Expr → Json
  | .literal pos value => nodeJson (.object [("Literal", value.json)]) pos
  | .identifier pos name => nodeJson (.object [("Identifier", .str name)]) pos
  | .binary pos op left right =>
    nodeJson (kindJson "BinaryOp"
      [("left", left.json), ("op", .str op.name), ("right", right.json)]) pos
  | .unary pos op operand =>
    nodeJson (kindJson "UnaryOp" [("op", .str op.name), ("operand", operand.json)]) pos
  | .call pos function arguments =>
    nodeJson (kindJson "FunctionCall"
      [("name", .str function), ("arguments", .array (jsons arguments))]) pos
  | .list pos items => nodeJson (.object [("List", .array (jsons items))]) pos
  | .dict pos entries => nodeJson (.object [("Dict", .array (entryJsons entries))]) pos
  | .item pos object index =>
    nodeJson (kindJson "IndexAccess" [("object", object.json), ("index", index.json)]) pos
  | .attribute pos object name =>
    nodeJson (kindJson "AttributeAccess" [("object", object.json), ("attribute", .str name)]) pos

def jsons : List Expr → List Json
  | [] => []
  | e :: es => e.json :: jsons es

def entryJsons : List (Expr × Expr) → List Json
  | [] => []
  | (key, value) :: entries => .array [key.json, value.json] :: entryJsons entries

end

end Expr

namespace Stmt

mutual

def json : Stmt → Json
  | .assign pos name value =>
    nodeJson (kindJson "Assignment" [("name", .str name), ("value", value.json)]) pos
  | .assignIndex pos object index value =>
    nodeJson (kindJson "IndexAssignment"
      [("object", object.json), ("index", index.json), ("value", value.json)]) pos
  | .branch pos condition body clauses otherwise =>
    nodeJson (kindJson "If"
      [("condition", condition.json), ("then_block", .array (blockJson body)),
        ("elif_blocks", .array (clausesJson clauses)), ("else_block", otherwiseJson otherwise)]) pos
  | .whileLoop pos condition body =>
    nodeJson (kindJson "While"
      [("condition", condition.json), ("body", .array (blockJson body))]) pos
  | .repeatLoop pos count body =>
    nodeJson (kindJson "Repeat" [("count", count.json), ("body", .array (blockJson body))]) pos
  | .forEach pos name items body =>
    nodeJson (kindJson "ForEach"
      [("iterator", .str name), ("iterable", items.json), ("body", .array (blockJson body))]) pos
  | .define pos name parameters body =>
    nodeJson (kindJson "FunctionDef"
      [("name", .str name), ("parameters", .array (parameters.map .str)),
        ("body", .array (blockJson body))]) pos
  | .giveBack pos (some value) => nodeJson (.object [("Return", value.json)]) pos
  | .giveBack pos none => nodeJson (.object [("Return", .null)]) pos
  | .attempt pos body handler =>
    nodeJson (kindJson "TryExcept"
      [("try_block", .array (blockJson body)), ("except_block", .array (blockJson handler))]) pos
  | .importModule pos name => nodeJson (kindJson "Import" [("module_name", .str name)]) pos
  | .breakLoop pos => nodeJson (.str "Break") pos
  | .continueLoop pos => nodeJson (.str "Continue") pos
  | .pass pos => nodeJson (.str "Pass") pos
  | .expression pos value => nodeJson (.object [("Expression", value.json)]) pos

def blockJson : List Stmt → List Json
  | [] => []
  | s :: ss => s.json :: blockJson ss

def clausesJson : List (Expr × List Stmt) → List Json
  | [] => []
  | (condition, body) :: clauses =>
    .object [("condition", condition.json), ("body", .array (blockJson body))] ::
      clausesJson clauses

def otherwiseJson : Option (List Stmt) → Json
  | none => .null
  | some body => .array (blockJson body)

end

end Stmt

def Program.json (p : Program) : Json :=
  .object [("statements", .array (Stmt.blockJson p.statements)), ("position", p.position.json)]

def Definition.json (d : Definition) : Json :=
  .object
    [("code", .str d.code.text), ("name", .str d.name), ("message_tech", .str d.tech),
      ("message_meow", .str d.meow), ("severity", .str d.severity.name), ("mood", .str d.mood),
      ("suggestion", .str d.suggestion), ("example", .str d.sample)]

def ContextLine.json (line : ContextLine) : Json :=
  .object
    [("line_no", .int line.number), ("text", .str line.text), ("is_error_line", .bool line.isFault)]

def Diagnostic.json (d : Diagnostic) : Json :=
  .object
    ([("definition", d.definition.json), ("file", .str d.file), ("position", d.position.json),
        ("offending_text", .str d.text), ("context", .array (d.context.map ContextLine.json)),
        ("vars", .array (d.vars.map fun (name, value) => .array [.str name, .str value]))] ++
      match d.internal with
      | none => []
      | some detail => [("internal", .str detail)])

end Miaou
