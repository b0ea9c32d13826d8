import Miaou.Grammar.Expr
import Miaou.Syntax.Stmt

/-!
Reading statements and the blocks they govern. A block begins with a mark of deeper indentation
and ends with the matching mark, or at the end of the script.
-/

namespace Miaou.Grammar

def endsLine : List Token → Bool
  | [] => true
  | t :: _ => t.kind = .layout .newline || t.kind = .layout .dedent

def lineOfExpressions (ts : List Token) : Except Failure (Read (List Expr) (ts.length + 1)) :=
  if endsLine ts then .ok ⟨[], ts, Nat.lt_succ_self _⟩
  else do
    let ⟨e, us, less⟩ ← expression (.chain .sum) ts
    let ⟨es, vs, most⟩ ← lineOfExpressions us
    .ok ⟨e :: es, vs, Nat.lt_of_lt_of_le most (Nat.le_succ_of_le less)⟩
termination_by ts.length
decreasing_by exact less

def parameters : (ts : List Token) → Except Failure (Read (List String) ts.length)
  | [] => .error ⟨.missingElement .parameterName, []⟩
  | t :: rest =>
    if t.kind = .symbol .rightParen then .ok ⟨[], rest, Nat.lt_succ_self _⟩
    else if t.kind = .identifier then
      match rest with
      | [] => .error ⟨.missingDelimiter .commaOrRightParen, []⟩
      | u :: us =>
        if u.kind = .symbol .comma then do
          let ⟨names, vs, _⟩ ← parameters us
          .ok ⟨t.lexeme :: names, vs, by simp only [List.length_cons]; omega⟩
        else if u.kind = .symbol .rightParen then
          .ok ⟨[t.lexeme], us, by simp only [List.length_cons]; omega⟩
        else .error ⟨.missingDelimiter .commaOrRightParen, u :: us⟩
    else .error ⟨.missingElement .parameterName, t :: rest⟩

/-- A statement that begins with the expression `target`: an assignment to an item if an equals
sign follows, otherwise the expression itself. -/
def itemAssignment (pos : Position) (target : Expr) :
    (ts : List Token) → Except Failure (Read Stmt (ts.length + 1))
  | ⟨.symbol .assign, payload, place⟩ :: rest =>
    match target with
    | .item _ object index => do
      let ⟨value, us, _⟩ ← expression .lowest rest
      .ok ⟨.assignIndex pos object index value, us, by simp only [List.length_cons]; omega⟩
    | _ => .error ⟨.unknownInstruction, ⟨.symbol .assign, payload, place⟩ :: rest⟩
  | ts => .ok ⟨.expression pos target, ts, Nat.lt_succ_self _⟩

/-- A statement that begins with a name; the token behind the name decides its form. -/
def namedStatement (name : Token) (rest : List Token) :
    Except Failure (Read Stmt (rest.length + 1)) :=
  match rest with
  | ⟨.symbol .assign, _, _⟩ :: us => do
    let ⟨value, vs, _⟩ ← expression .lowest us
    .ok ⟨.assign name.position name.lexeme value, vs, by simp only [List.length_cons]; omega⟩
  | ⟨.symbol .leftBracket, payload, pos⟩ :: us => do
    let ⟨target, vs, _⟩ ← expression .postfixes (name :: ⟨.symbol .leftBracket, payload, pos⟩ :: us)
    let ⟨s, ws, _⟩ ← itemAssignment name.position target vs
    .ok ⟨s, ws, by simp only [List.length_cons] at *; omega⟩
  | rest => do
    let ⟨e, us, _⟩ ← expression .lowest (name :: rest)
    .ok ⟨.expression name.position e, us, by simp only [List.length_cons] at *; omega⟩

def returned (ts : List Token) : Except Failure (Read (Option Expr) (ts.length + 1)) :=
  if endsLine ts then .ok ⟨none, ts, Nat.lt_succ_self _⟩
  else do
    let ⟨e, us, less⟩ ← expression .lowest ts
    .ok ⟨some e, us, Nat.lt_succ_of_lt less⟩

mutual

def statement (ts : List Token) : Except Failure (Read Stmt ts.length) :=
  match ts with
  | [] => .error ⟨.unknownInstruction, []⟩
  | t :: rest =>
    match t.kind with
    | .keyword .ecrire => do
      let ⟨given, us, _⟩ ← lineOfExpressions rest
      .ok ⟨.expression t.position (.call t.position "ecrire" given), us,
        by simp only [List.length_cons]; omega⟩
    | .keyword .si => do
      let ⟨condition, us, _⟩ ← expression .lowest rest
      have := skip_length_le (.keyword .alors) us
      let ⟨_, vs, _⟩ ← expectColon (skip (.keyword .alors) us)
      let ⟨body, ws, _⟩ ← block vs
      let ⟨more, xs, _⟩ ← clauses ws
      let ⟨last, ys, _⟩ ← otherwise xs
      .ok ⟨.branch t.position condition body more last, ys,
        by simp only [List.length_cons]; omega⟩
    | .keyword .tantQue => do
      let ⟨condition, us, _⟩ ← expression .lowest rest
      let ⟨_, vs, _⟩ ← expectColon us
      let ⟨body, ws, _⟩ ← block vs
      .ok ⟨.whileLoop t.position condition body, ws, by simp only [List.length_cons]; omega⟩
    | .keyword .repeter => do
      let ⟨count, us, _⟩ ← expression .lowest rest
      have := skip_length_le (.keyword .fois) us
      let ⟨_, vs, _⟩ ← expectColon (skip (.keyword .fois) us)
      let ⟨body, ws, _⟩ ← block vs
      .ok ⟨.repeatLoop t.position count body, ws, by simp only [List.length_cons]; omega⟩
    | .keyword .pourChaque => do
      let ⟨name, us, _⟩ ← expectName .variableName rest
      let ⟨_, vs, _⟩ ← expect (.keyword .dans) (.missingElement .dans) us
      let ⟨items, ws, _⟩ ← expression .lowest vs
      let ⟨_, xs, _⟩ ← expectColon ws
      let ⟨body, ys, _⟩ ← block xs
      .ok ⟨.forEach t.position name.lexeme items body, ys,
        by simp only [List.length_cons]; omega⟩
    | .keyword .fonction => do
      let ⟨name, us, _⟩ ← expectName .functionName rest
      let ⟨_, vs, _⟩ ← expect (.symbol .leftParen) (.missingDelimiter .leftParen) us
      let ⟨names, ws, _⟩ ← parameters vs
      let ⟨_, xs, _⟩ ← expectColon ws
      let ⟨body, ys, _⟩ ← block xs
      .ok ⟨.define t.position name.lexeme names body, ys,
        by simp only [List.length_cons]; omega⟩
    | .keyword .retour => do
      let ⟨value, us, _⟩ ← returned rest
      .ok ⟨.giveBack t.position value, us, by simp only [List.length_cons]; omega⟩
    | .keyword .essayer => do
      let ⟨_, us, _⟩ ← expectColon rest
      let ⟨body, vs, _⟩ ← block us
      let ⟨_, ws, _⟩ ← expect (.keyword .sauf) (.missingElement .sauf) vs
      have := skip_length_le (.keyword .erreur) ws
      let ⟨_, xs, _⟩ ← expectColon (skip (.keyword .erreur) ws)
      let ⟨handler, ys, _⟩ ← block xs
      .ok ⟨.attempt t.position body handler, ys, by simp only [List.length_cons]; omega⟩
    | .keyword .importer => do
      let ⟨name, us, _⟩ ← expectName .moduleName rest
      .ok ⟨.importModule t.position name.lexeme, us, by simp only [List.length_cons]; omega⟩
    | .identifier => do
      let ⟨s, us, _⟩ ← namedStatement t rest
      .ok ⟨s, us, by simp only [List.length_cons]; omega⟩
    | .keyword .meow => .error ⟨.prematureMeow, t :: rest⟩
    | .keyword .miaou => .error ⟨.misplacedMiaou, t :: rest⟩
    | .keyword .sinon => .error ⟨.danglingElse, t :: rest⟩
    | .keyword .sinonSi => .error ⟨.danglingElse, t :: rest⟩
    | .layout .indent => .error ⟨.badIndentation, t :: rest⟩
    | _ => do
      let ⟨e, us, _⟩ ← expression .lowest (t :: rest)
      .ok ⟨.expression e.position e, us, by omega⟩
termination_by ts.length * 2
decreasing_by
  all_goals simp only [List.length_cons] at *
  all_goals omega

def block (ts : List Token) : Except Failure (Read (List Stmt) ts.length) :=
  match _h : skipNewlines ts with
  | ⟨.layout .indent, _, _⟩ :: rest => do
    have := skipNewlines_length_le ts
    let ⟨body, us, _⟩ ← blockBody rest
    .ok ⟨body, us, by rw [_h, List.length_cons] at this; omega⟩
  | us => .error ⟨.badIndentation, us⟩
termination_by ts.length * 2
decreasing_by
  rw [_h, List.length_cons] at this
  omega

def blockBody (ts : List Token) : Except Failure (Read (List Stmt) (ts.length + 1)) :=
  match _h : skipNewlines ts with
  | [] => .ok ⟨[], [], Nat.succ_pos _⟩
  | t :: rest => do
    have := skipNewlines_length_le ts
    if t.kind = .layout .dedent then
      .ok ⟨[], rest, by rw [_h, List.length_cons] at this; omega⟩
    else do
      let ⟨s, us, _⟩ ← statement (t :: rest)
      let ⟨ss, vs, _⟩ ← blockBody us
      .ok ⟨s :: ss, vs, by rw [_h] at this; omega⟩
termination_by ts.length * 2 + 1
decreasing_by
  all_goals rw [_h] at this
  all_goals omega

def clauses (ts : List Token) :
    Except Failure (Read (List (Expr × List Stmt)) (ts.length + 1)) :=
  match ts with
  | ⟨.keyword .sinonSi, _, _⟩ :: rest => do
    let ⟨condition, us, _⟩ ← expression .lowest rest
    have := skip_length_le (.keyword .alors) us
    let ⟨_, vs, _⟩ ← expectColon (skip (.keyword .alors) us)
    let ⟨body, ws, _⟩ ← block vs
    let ⟨more, xs, _⟩ ← clauses ws
    .ok ⟨(condition, body) :: more, xs, by simp only [List.length_cons]; omega⟩
  | ts => .ok ⟨[], ts, Nat.lt_succ_self _⟩
termination_by ts.length * 2
decreasing_by
  all_goals simp only [List.length_cons] at *
  all_goals omega

def otherwise (ts : List Token) :
    Except Failure (Read (Option (List Stmt)) (ts.length + 1)) :=
  match ts with
  | ⟨.keyword .sinon, _, _⟩ :: rest => do
    let ⟨_, us, _⟩ ← expectColon rest
    let ⟨body, vs, _⟩ ← block us
    .ok ⟨some body, vs, by simp only [List.length_cons]; omega⟩
  | ts => .ok ⟨none, ts, Nat.lt_succ_self _⟩
termination_by ts.length * 2
decreasing_by
  all_goals simp only [List.length_cons] at *
  all_goals omega

end

end Miaou.Grammar
