import Miaou.Proofs.Diagnostic.Raising
import Miaou.Proofs.Grammar.StmtLaw

/-!
Reading with a cursor. Here the tokens stay where they are and a place moves over them, one token
at a time; it stops moving at an end token, and whoever asks for a token behind the last one is
answered with the last one. Nothing keeps such a reader from going in circles, so its procedures
run on fuel, and a log tells where the place has been. What is wrong is raised on the spot, by its
code.
-/

namespace Miaou.Cursor

open Grammar

/-- The tokens under a cursor, the last of which is an end token, and who tells what is wrong. -/
structure Source where
  reporter : Reporter
  tokens : List Token
  ended : ∃ t ∈ tokens.getLast?, t.kind = .layout .eof

/-- Adds an end token if there is none at the end. -/
def Source.ofTokens (r : Reporter) (ts : List Token) : Source :=
  if h : ∃ t ∈ ts.getLast?, t.kind = .layout .eof then ⟨r, ts, h⟩
  else
    let last : Token := .eof ((ts.getLast?.map Token.position).getD .start)
    ⟨r, ts ++ [last], last, by simp, rfl⟩

theorem Source.length_pos (s : Source) : 0 < s.tokens.length := by
  obtain ⟨t, ht, -⟩ := s.ended
  exact List.length_pos_of_mem (List.mem_of_mem_getLast? ht)

inductive Event where
  | moved (place : Nat)
  /-- A loop was left because its last turn had not moved the place. -/
  | stalled
  deriving DecidableEq, Repr

structure Run (α : Type) where
  result : Except Halt (α × Nat)
  log : List Event

structure Proc (α : Type) where
  run : Source → Nat → Run α

namespace Proc

variable {α β : Type}

protected def pure (a : α) : Proc α := ⟨fun _ place => ⟨.ok (a, place), []⟩⟩

protected def bind (m : Proc α) (f : α → Proc β) : Proc β :=
  ⟨fun s place =>
    match (m.run s place).result with
    | .error halt => ⟨.error halt, (m.run s place).log⟩
    | .ok (a, place') =>
      ⟨((f a).run s place').result, (m.run s place).log ++ ((f a).run s place').log⟩⟩

instance : Monad Proc where
  pure := Proc.pure
  bind := Proc.bind

def exhausted : Proc α := ⟨fun _ _ => ⟨.error .exhausted, []⟩⟩

def ahead (offset : Nat) : Proc Token :=
  ⟨fun s place =>
    have := s.length_pos
    ⟨.ok (s.tokens[min (place + offset) (s.tokens.length - 1)], place), []⟩⟩

def current : Proc Token := ahead 0

def here : Proc Nat := ⟨fun _ place => ⟨.ok (place, place), []⟩⟩

def record (event : Event) : Proc Unit := ⟨fun _ place => ⟨.ok ((), place), [event]⟩⟩

def move : Proc Unit := ⟨fun _ place => ⟨.ok ((), place + 1), [.moved (place + 1)]⟩⟩

def advance : Proc Unit := do
  if (← current).kind = .layout .eof then pure () else move

def raise (code : Code) (expected : Option String) (t : Token) : Proc α :=
  ⟨fun s _ => ⟨.error (s.reporter.raise code expected t.position t.lexeme), []⟩⟩

def fail (code : Code) : Proc α := do
  raise code none (← current)

def miss (code : Code) (expected : String) : Proc α := do
  raise code (some expected) (← current)

def eat (kind : Kind) : Proc Bool := do
  if (← current).kind = kind then
    advance
    pure true
  else pure false

def expect (kind : Kind) (code : Code) (expected : String) : Proc Token := do
  let t ← current
  if t.kind = kind then
    advance
    pure t
  else miss code expected

def expectColon : Proc Token := expect (.symbol .colon) .missingElement "':'"

def expectName (expected : String) : Proc Token := expect .identifier .missingElement expected

end Proc

/-- The procedures that call one another, loops among them. -/
inductive Call : Type → Type where
  | skipNewlines : Call Unit
  | expression (level : Level) : Call Expr
  | operations (c : Chain) (left : Expr) : Call Expr
  | accesses (object : Expr) : Call Expr
  | primary : Call Expr
  | arguments : Call (List Expr)
  | entries : Call (List (Expr × Expr))
  | statement : Call Stmt
  | lineOfExpressions : Call (List Expr)
  | parameters : Call (List String)
  | block : Call (List Stmt)
  | blockBody : Call (List Stmt)
  | clauses : Call (List (Expr × List Stmt))
  | statements : Call (List Stmt)

/-- Whether the group that begins at the first token is empty or has a comma outside all inner
groups. -/
def scanGroup (offset depth : Nat) : List Token → Bool
  | [] => false
  | t :: rest =>
    if opensGroup t.kind then scanGroup (offset + 1) (depth + 1) rest
    else if closesGroup t.kind then
      if depth - 1 = 0 then offset = 1 else scanGroup (offset + 1) (depth - 1) rest
    else if t.kind = .symbol .comma && depth = 1 then true
    else if t.kind = .layout .newline || t.kind = .layout .eof then false
    else scanGroup (offset + 1) depth rest

def listsArguments : Proc Bool :=
  ⟨fun s place => ⟨.ok (scanGroup 0 0 (s.tokens.drop place), place), []⟩⟩

def givesArguments : Proc Bool := do
  if (← .current).kind = .symbol .leftParen then listsArguments else pure false

def question : Proc String := do
  let t ← .current
  if t.kind = .identifier then
    if Lexeme.lowered t.lexeme.toList = "texte" then
      Proc.advance
      pure "demander_texte"
    else if Lexeme.lowered t.lexeme.toList = "nombre" then
      Proc.advance
      pure "demander_nombre"
    else pure "demander_texte"
  else pure "demander_texte"

def skipRangeWord : Proc Unit := do
  let t ← .current
  if t.kind = .identifier && Lexeme.lowered t.lexeme.toList = "a" then .advance else pure ()

section Procedures

variable (call : {α : Type} → Call α → Proc α)

def skipNewlines : Proc Unit := do
  if ← .eat (.layout .newline) then call .skipNewlines else pure ()

def operations (c : Chain) (left : Expr) : Proc Expr := do
  match c.operator? (← .current).kind with
  | none => pure left
  | some op =>
    Proc.advance
    let right ← call (.expression c.operands)
    call (.operations c (.binary left.position op left right))

def exponent (base : Expr) : Proc Expr := do
  if ← .eat (.symbol .starStar) then
    let e ← call (.expression .power)
    pure (.binary base.position .pow base e)
  else pure base

def signed (pos : Position) (op : UnaryOp) : Proc Expr := do
  Proc.advance
  let operand ← call (.expression .sign)
  pure (.unary pos op operand)

def expression : Level → Proc Expr
  | .chain c => do
    let left ← call (.expression c.operands)
    call (.operations c left)
  | .negation => do
    let t ← .current
    if ← .eat (.keyword .non) then
      let operand ← call (.expression .negation)
      pure (.unary t.position .not operand)
    else call (.expression (.chain .comparison))
  | .power => do
    let base ← call (.expression .sign)
    exponent call base
  | .sign => do
    let t ← .current
    match sign? t.kind with
    | some op => signed call t.position op
    | none => call (.expression .postfixes)
  | .postfixes => do
    let first ← call .primary
    call (.accesses first)

def accesses (object : Expr) : Proc Expr := do
  let t ← .current
  if t.kind = .symbol .leftParen then
    match object.path? with
    | none => .fail .unknownInstruction
    | some function =>
      Proc.advance
      let given ← call .arguments
      call (.accesses (.call object.position function given))
  else if t.kind = .symbol .leftBracket then
    Proc.advance
    let index ← call (.expression .lowest)
    let _ ← Proc.expect (.symbol .rightBracket) .missingDelimiter "']'"
    call (.accesses (.item object.position object index))
  else if t.kind = .symbol .dot then
    Proc.advance
    let name ← .current
    if namesAttribute name.kind then
      Proc.advance
      call (.accesses (.attribute object.position object name.lexeme))
    else .miss .missingElement "nom d'attribut"
  else pure object

def list {α : Type} (item : Proc α) (more : Proc (List α)) : Proc (List α) := do
  if (← .current).kind = .symbol .rightParen then
    Proc.advance
    pure []
  else if (← .current).kind = .layout .eof then .miss .missingDelimiter "')'"
  else
    let first ← item
    if ← .eat (.symbol .comma) then
      let others ← more
      pure (first :: others)
    else
      let _ ← Proc.expect (.symbol .rightParen) .missingDelimiter "')'"
      pure [first]

def entry : Proc (Expr × Expr) := do
  let key ← call (.expression .lowest)
  let _ ← Proc.expectColon
  let value ← call (.expression .lowest)
  pure (key, value)

def random (pos : Position) : Proc Expr := do
  Proc.advance
  if ← givesArguments then
    Proc.advance
    let given ← call .arguments
    pure (.call pos "aleatoire" given)
  else
    let low ← call (.expression (.chain .sum))
    skipRangeWord
    let high ← call (.expression (.chain .sum))
    pure (.call pos "aleatoire" [low, high])

def builtin (pos : Position) (function : Builtin) : Proc Expr := do
  Proc.advance
  if ← .eat (.symbol .leftParen) then
    let given ← call .arguments
    pure (.call pos function.function given)
  else
    let operand ← call (.expression .postfixes)
    pure (.call pos function.function [operand])

def primary : Proc Expr := do
  let t ← .current
  match literal? t.kind t.payload with
  | some value =>
    Proc.advance
    pure (.literal t.position value)
  | none =>
    match t.kind with
    | .identifier =>
      Proc.advance
      pure (.identifier t.position t.lexeme)
    | .keyword .compteur =>
      Proc.advance
      pure (.identifier t.position "compteur")
    | .symbol .leftParen =>
      Proc.advance
      let e ← call (.expression .lowest)
      let _ ← Proc.expect (.symbol .rightParen) .missingDelimiter "')'"
      pure e
    | .keyword .liste =>
      Proc.advance
      let _ ← Proc.expect (.symbol .leftParen) .missingDelimiter "'('"
      let items ← call .arguments
      pure (.list t.position items)
    | .keyword .dictionnaire =>
      Proc.advance
      let _ ← Proc.expect (.symbol .leftParen) .missingDelimiter "'('"
      let pairs ← call .entries
      pure (.dict t.position pairs)
    | .keyword .demander =>
      Proc.advance
      let function ← question
      let prompt ← call (.expression .lowest)
      pure (.call t.position function [prompt])
    | .keyword .aleatoire => random call t.position
    | .builtin function => builtin call t.position function
    | _ => .fail .unknownInstruction

/-! Statements -/

def endsLine : Proc Bool := do
  let kind := (← .current).kind
  pure (kind = .layout .newline || kind = .layout .eof || kind = .layout .dedent)

def lineOfExpressions : Proc (List Expr) := do
  if ← endsLine then pure []
  else
    let before ← Proc.here
    let e ← call (.expression (.chain .sum))
    let behind ← Proc.here
    if behind = before then
      Proc.record .stalled
      pure [e]
    else
      let es ← call .lineOfExpressions
      pure (e :: es)

def parameters : Proc (List String) := do
  if (← .current).kind = .symbol .rightParen then
    Proc.advance
    pure []
  else
    let name ← .expectName "nom de paramètre"
    if ← .eat (.symbol .comma) then
      let names ← call .parameters
      pure (name.lexeme :: names)
    else if (← .current).kind = .symbol .rightParen then
      Proc.advance
      pure [name.lexeme]
    else .miss .missingDelimiter "',' ou ')'"

def itemAssignment (pos : Position) (target : Expr) : Proc Stmt := do
  if (← .current).kind = .symbol .assign then
    match target with
    | .item _ object index =>
      Proc.advance
      let value ← call (.expression .lowest)
      pure (.assignIndex pos object index value)
    | _ => .fail .unknownInstruction
  else pure (.expression pos target)

def namedStatement (name : Token) : Proc Stmt := do
  let next ← .ahead 1
  match next.kind with
  | .symbol .assign =>
    Proc.advance
    Proc.advance
    let value ← call (.expression .lowest)
    pure (.assign name.position name.lexeme value)
  | .symbol .leftBracket =>
    let target ← call (.expression .postfixes)
    itemAssignment call name.position target
  | _ =>
    let e ← call (.expression .lowest)
    pure (.expression name.position e)

def clauses : Proc (List (Expr × List Stmt)) := do
  if ← .eat (.keyword .sinonSi) then
    let condition ← call (.expression .lowest)
    let _ ← Proc.eat (.keyword .alors)
    let _ ← Proc.expectColon
    let body ← call .block
    let more ← call .clauses
    pure ((condition, body) :: more)
  else pure []

def otherwise : Proc (Option (List Stmt)) := do
  if ← .eat (.keyword .sinon) then
    let _ ← Proc.expectColon
    let body ← call .block
    pure (some body)
  else pure none

def branch (pos : Position) : Proc Stmt := do
  Proc.advance
  let condition ← call (.expression .lowest)
  let _ ← Proc.eat (.keyword .alors)
  let _ ← Proc.expectColon
  let body ← call .block
  let more ← call .clauses
  let last ← otherwise call
  pure (.branch pos condition body more last)

def whileLoop (pos : Position) : Proc Stmt := do
  Proc.advance
  let condition ← call (.expression .lowest)
  let _ ← Proc.expectColon
  let body ← call .block
  pure (.whileLoop pos condition body)

def repeatLoop (pos : Position) : Proc Stmt := do
  Proc.advance
  let count ← call (.expression .lowest)
  let _ ← Proc.eat (.keyword .fois)
  let _ ← Proc.expectColon
  let body ← call .block
  pure (.repeatLoop pos count body)

def forEach (pos : Position) : Proc Stmt := do
  Proc.advance
  let name ← .expectName "nom de variable"
  let _ ← Proc.expect (.keyword .dans) .missingElement "'dans'"
  let items ← call (.expression .lowest)
  let _ ← Proc.expectColon
  let body ← call .block
  pure (.forEach pos name.lexeme items body)

def define (pos : Position) : Proc Stmt := do
  Proc.advance
  let name ← .expectName "nom de fonction"
  let _ ← Proc.expect (.symbol .leftParen) .missingDelimiter "'('"
  let names ← call .parameters
  let _ ← Proc.expectColon
  let body ← call .block
  pure (.define pos name.lexeme names body)

def returned : Proc (Option Expr) := do
  if ← endsLine then pure none
  else
    let e ← call (.expression .lowest)
    pure (some e)

def attempt (pos : Position) : Proc Stmt := do
  Proc.advance
  let _ ← Proc.expectColon
  let body ← call .block
  let _ ← Proc.expect (.keyword .sauf) .missingElement "'sauf'"
  let _ ← Proc.eat (.keyword .erreur)
  let _ ← Proc.expectColon
  let handler ← call .block
  pure (.attempt pos body handler)

def statement : Proc Stmt := do
  let t ← .current
  match t.kind with
  | .keyword .ecrire =>
    Proc.advance
    let given ← call .lineOfExpressions
    pure (.expression t.position (.call t.position "ecrire" given))
  | .keyword .si => branch call t.position
  | .keyword .tantQue => whileLoop call t.position
  | .keyword .repeter => repeatLoop call t.position
  | .keyword .pourChaque => forEach call t.position
  | .keyword .fonction => define call t.position
  | .keyword .retour =>
    Proc.advance
    let value ← returned call
    pure (.giveBack t.position value)
  | .keyword .essayer => attempt call t.position
  | .keyword .importer =>
    Proc.advance
    let name ← .expectName "nom de module"
    pure (.importModule t.position name.lexeme)
  | .identifier => namedStatement call t
  | .keyword .meow => .fail .prematureMeow
  | .keyword .miaou => .fail .forbiddenOrder
  | .keyword .sinon | .keyword .sinonSi => .fail .danglingElse
  | .layout .indent => .fail .badIndentation
  | _ =>
    let e ← call (.expression .lowest)
    pure (.expression e.position e)

def block : Proc (List Stmt) := do
  call .skipNewlines
  if (← .current).kind = .layout .indent then
    Proc.advance
    call .blockBody
  else .fail .badIndentation

def blockBody : Proc (List Stmt) := do
  call .skipNewlines
  let kind := (← .current).kind
  if kind = .layout .dedent then
    Proc.advance
    pure []
  else if kind = .layout .eof then pure []
  else
    let s ← call .statement
    let ss ← call .blockBody
    pure (s :: ss)

def statements : Proc (List Stmt) := do
  call .skipNewlines
  let kind := (← .current).kind
  if kind = .keyword .meow || kind = .layout .eof then pure []
  else
    let s ← call .statement
    let ss ← call .statements
    pure (s :: ss)

/-- One turn of a procedure, in terms of the procedures it calls. -/
def turn : {α : Type} → Call α → Proc α
  | _, .skipNewlines => skipNewlines call
  | _, .expression level => expression call level
  | _, .operations c left => operations call c left
  | _, .accesses object => accesses call object
  | _, .primary => primary call
  | _, .arguments => list (call (.expression .lowest)) (call .arguments)
  | _, .entries => list (entry call) (call .entries)
  | _, .statement => statement call
  | _, .lineOfExpressions => lineOfExpressions call
  | _, .parameters => parameters call
  | _, .block => block call
  | _, .blockBody => blockBody call
  | _, .clauses => clauses call
  | _, .statements => statements call

end Procedures

def run : Nat → {α : Type} → Call α → Proc α
  | 0, _, _ => .exhausted
  | fuel + 1, _, c => turn (run fuel) c

def script (fuel : Nat) : Proc Program := do
  if (← .current).kind = .layout .eof then .fail .emptyFile
  else
    run fuel .skipNewlines
    let opening ← .current
    if opening.kind = .keyword .miaou then
      Proc.advance
      let ss ← run fuel .statements
      let closing ← .current
      if closing.kind = .keyword .meow then
        Proc.advance
        run fuel .skipNewlines
        if (← .current).kind = .layout .eof then pure ⟨ss, opening.position⟩
        else .raise .prematureMeow none closing
      else .fail .missingMeow
    else .fail .missingMiaou

def parse (r : Reporter) (fuel : Nat) (ts : List Token) : Run Program :=
  (script fuel).run (.ofTokens r ts) 0

end Miaou.Cursor
