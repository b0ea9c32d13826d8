import Miaou.Grammar.Level
import Miaou.Grammar.Read
import Miaou.Token.Lexeme

/-!
Reading expressions. `expression level` reads an expression whose operators bind at least as
strongly as `level`. It looks one token ahead, except behind the word that draws a random number,
where a whole group is looked through to tell a list of arguments from a parenthesised bound.
-/

namespace Miaou.Grammar

def opensGroup (kind : Kind) : Bool := kind = .symbol .leftParen || kind = .symbol .leftBracket

def closesGroup (kind : Kind) : Bool := kind = .symbol .rightParen || kind = .symbol .rightBracket

/-- Whether a comma comes, on the same line, before the group closes in which `depth` further
groups are open. -/
def commaAhead : (depth : Nat) → List Token → Bool
  | _, [] => false
  | depth, t :: rest =>
    if opensGroup t.kind then commaAhead (depth + 1) rest
    else if closesGroup t.kind then
      match depth with
      | 0 => false
      | outer + 1 => commaAhead outer rest
    else if t.kind = .symbol .comma && depth = 0 then true
    else if t.kind = .layout .newline then false
    else commaAhead depth rest

/-- Whether what follows an opening parenthesis is a list of arguments: it is empty or has a
comma outside all inner groups. -/
def listsArguments : List Token → Bool
  | [] => false
  | t :: rest => closesGroup t.kind || commaAhead 0 (t :: rest)

def argumentGroup? : List Token → Option (List Token)
  | [] => none
  | t :: rest => if t.kind = .symbol .leftParen && listsArguments rest then some rest else none

theorem argumentGroup?_length {ts inner : List Token} (h : argumentGroup? ts = some inner) :
    inner.length < ts.length := by
  cases ts with
  | nil => nomatch h
  | cons t rest =>
    simp only [argumentGroup?] at h
    split at h
    · cases h
      exact Nat.lt_succ_self _
    · nomatch h

/-- The function that asks a question, by the kind of answer named before it. -/
def question : List Token → String × List Token
  | [] => ("demander_texte", [])
  | t :: rest =>
    if t.kind = .identifier then
      match Lexeme.lowered t.lexeme.toList with
      | "texte" => ("demander_texte", rest)
      | "nombre" => ("demander_nombre", rest)
      | _ => ("demander_texte", t :: rest)
    else ("demander_texte", t :: rest)

theorem question_length_le (ts : List Token) : (question ts).2.length ≤ ts.length := by
  cases ts with
  | nil => exact Nat.le_refl _
  | cons t rest =>
    simp only [question]
    split
    · split <;> simp
    · simp

def skipRangeWord : List Token → List Token
  | [] => []
  | t :: rest =>
    if t.kind = .identifier && Lexeme.lowered t.lexeme.toList = "a" then rest else t :: rest

theorem skipRangeWord_length_le (ts : List Token) : (skipRangeWord ts).length ≤ ts.length := by
  cases ts with
  | nil => exact Nat.le_refl _
  | cons t rest =>
    simp only [skipRangeWord]
    split <;> simp

def namesAttribute (kind : Kind) : Bool :=
  kind = .identifier || kind = .keyword .aleatoire || kind.isBuiltin

mutual

def expression (level : Level) (ts : List Token) : Except Failure (Read Expr ts.length) :=
  match level with
  | .chain c => do
    have := Level.rank_operands c
    let ⟨first, us, _⟩ ← expression c.operands ts
    let ⟨e, vs, _⟩ ← operations c first us
    .ok ⟨e, vs, by omega⟩
  | .negation =>
    match ts with
    | ⟨.keyword .non, _, pos⟩ :: rest => do
      let ⟨operand, us, _⟩ ← expression .negation rest
      .ok ⟨.unary pos .not operand, us, by simp only [List.length_cons]; omega⟩
    | ts => expression (.chain .comparison) ts
  | .power => do
    let ⟨base, us, _⟩ ← expression .sign ts
    let ⟨e, vs, _⟩ ← exponent base us
    .ok ⟨e, vs, by omega⟩
  | .sign =>
    match ts with
    | ⟨.symbol .minus, _, pos⟩ :: rest => do
      let ⟨operand, us, _⟩ ← expression .sign rest
      .ok ⟨.unary pos .neg operand, us, by simp only [List.length_cons]; omega⟩
    | ⟨.symbol .plus, _, pos⟩ :: rest => do
      let ⟨operand, us, _⟩ ← expression .sign rest
      .ok ⟨.unary pos .plus operand, us, by simp only [List.length_cons]; omega⟩
    | ts => expression .postfixes ts
  | .postfixes => do
    let ⟨first, us, _⟩ ← primary ts
    let ⟨e, vs, _⟩ ← accesses first us
    .ok ⟨e, vs, by omega⟩
termination_by ts.length * 16 + level.rank
decreasing_by
  all_goals simp only [List.length_cons, Level.rank] at *
  all_goals omega

def operations (c : Chain) (left : Expr) (ts : List Token) :
    Except Failure (Read Expr (ts.length + 1)) :=
  match ts with
  | [] => .ok ⟨left, [], Nat.lt_succ_self _⟩
  | t :: rest =>
    match c.operator? t.kind with
    | none => .ok ⟨left, t :: rest, Nat.lt_succ_self _⟩
    | some op => do
      have := Level.rank_le c.operands
      let ⟨right, us, _⟩ ← expression c.operands rest
      let ⟨e, vs, _⟩ ← operations c (.binary left.position op left right) us
      .ok ⟨e, vs, by simp only [List.length_cons]; omega⟩
termination_by ts.length * 16
decreasing_by
  all_goals simp only [List.length_cons] at *
  all_goals omega

def exponent (base : Expr) (ts : List Token) : Except Failure (Read Expr (ts.length + 1)) :=
  match ts with
  | ⟨.symbol .starStar, _, _⟩ :: rest => do
    let ⟨e, us, _⟩ ← expression .power rest
    .ok ⟨.binary base.position .pow base e, us, by simp only [List.length_cons]; omega⟩
  | ts => .ok ⟨base, ts, Nat.lt_succ_self _⟩
termination_by ts.length * 16
decreasing_by
  all_goals simp only [List.length_cons, Level.rank] at *
  all_goals omega

def accesses (object : Expr) (ts : List Token) : Except Failure (Read Expr (ts.length + 1)) :=
  match ts with
  | ⟨.symbol .leftParen, payload, pos⟩ :: rest =>
    match object.path? with
    | none => .error ⟨.unknownInstruction, ⟨.symbol .leftParen, payload, pos⟩ :: rest⟩
    | some function => do
      let ⟨given, us, _⟩ ← arguments rest
      let ⟨e, vs, _⟩ ← accesses (.call object.position function given) us
      .ok ⟨e, vs, by simp only [List.length_cons]; omega⟩
  | ⟨.symbol .leftBracket, _, _⟩ :: rest => do
    let ⟨index, us, _⟩ ← expression .lowest rest
    let ⟨_, vs, _⟩ ← expect (.symbol .rightBracket) (.missingDelimiter .rightBracket) us
    let ⟨e, ws, _⟩ ← accesses (.item object.position object index) vs
    .ok ⟨e, ws, by simp only [List.length_cons]; omega⟩
  | ⟨.symbol .dot, _, _⟩ :: rest =>
    match rest with
    | [] => .error ⟨.missingElement .attributeName, []⟩
    | t :: us =>
      if namesAttribute t.kind then do
        let ⟨e, vs, _⟩ ← accesses (.attribute object.position object t.lexeme) us
        .ok ⟨e, vs, by simp only [List.length_cons]; omega⟩
      else .error ⟨.missingElement .attributeName, t :: us⟩
  | ts => .ok ⟨object, ts, Nat.lt_succ_self _⟩
termination_by ts.length * 16
decreasing_by
  all_goals simp only [List.length_cons, Level.lowest, Level.rank] at *
  all_goals omega

def primary (ts : List Token) : Except Failure (Read Expr ts.length) :=
  match ts with
  | [] => .error ⟨.unknownInstruction, []⟩
  | t :: rest =>
    match t.kind, t.payload with
    | .number, .int n => .ok ⟨.literal t.position (.int n), rest, Nat.lt_succ_self _⟩
    | .number, .float x => .ok ⟨.literal t.position (.float x), rest, Nat.lt_succ_self _⟩
    | .string, .str s => .ok ⟨.literal t.position (.str s), rest, Nat.lt_succ_self _⟩
    | .boolean, .bool b => .ok ⟨.literal t.position (.bool b), rest, Nat.lt_succ_self _⟩
    | .identifier, _ => .ok ⟨.identifier t.position t.lexeme, rest, Nat.lt_succ_self _⟩
    | .keyword .compteur, _ =>
      .ok ⟨.identifier t.position "compteur", rest, Nat.lt_succ_self _⟩
    | .symbol .leftParen, _ => do
      let ⟨e, us, _⟩ ← expression .lowest rest
      let ⟨_, vs, _⟩ ← expect (.symbol .rightParen) (.missingDelimiter .rightParen) us
      .ok ⟨e, vs, by simp only [List.length_cons]; omega⟩
    | .keyword .liste, _ => do
      let ⟨_, us, _⟩ ← expect (.symbol .leftParen) (.missingDelimiter .leftParen) rest
      let ⟨items, vs, _⟩ ← arguments us
      .ok ⟨.list t.position items, vs, by simp only [List.length_cons]; omega⟩
    | .keyword .dictionnaire, _ => do
      let ⟨_, us, _⟩ ← expect (.symbol .leftParen) (.missingDelimiter .leftParen) rest
      let ⟨pairs, vs, _⟩ ← entries us
      .ok ⟨.dict t.position pairs, vs, by simp only [List.length_cons]; omega⟩
    | .keyword .demander, _ => do
      have := question_length_le rest
      let ⟨prompt, us, _⟩ ← expression .lowest (question rest).2
      .ok ⟨.call t.position (question rest).1 [prompt], us,
        by simp only [List.length_cons]; omega⟩
    | .keyword .aleatoire, _ =>
      match _h : argumentGroup? rest with
      | some inner => do
        have := argumentGroup?_length _h
        let ⟨given, us, _⟩ ← arguments inner
        .ok ⟨.call t.position "aleatoire" given, us, by simp only [List.length_cons]; omega⟩
      | none => do
        let ⟨low, us, _⟩ ← expression (.chain .sum) rest
        have := skipRangeWord_length_le us
        let ⟨high, vs, _⟩ ← expression (.chain .sum) (skipRangeWord us)
        .ok ⟨.call t.position "aleatoire" [low, high], vs,
          by simp only [List.length_cons]; omega⟩
    | .builtin function, _ =>
      match rest with
      | ⟨.symbol .leftParen, _, _⟩ :: inner => do
        let ⟨given, us, _⟩ ← arguments inner
        .ok ⟨.call t.position function.function given, us,
          by simp only [List.length_cons]; omega⟩
      | rest => do
        let ⟨operand, us, _⟩ ← expression .postfixes rest
        .ok ⟨.call t.position function.function [operand], us,
          by simp only [List.length_cons]; omega⟩
    | _, _ => .error ⟨.unknownInstruction, t :: rest⟩
termination_by ts.length * 16
decreasing_by
  all_goals simp only [List.length_cons, Level.lowest, Level.rank] at *
  all_goals omega

/-- The arguments of a call up to its closing parenthesis; a comma may stand after the last. -/
def arguments (ts : List Token) : Except Failure (Read (List Expr) ts.length) :=
  match ts with
  | [] => .error ⟨.missingDelimiter .rightParen, []⟩
  | t :: rest =>
    if t.kind = .symbol .rightParen then .ok ⟨[], rest, Nat.lt_succ_self _⟩
    else do
      let ⟨e, us, _⟩ ← expression .lowest (t :: rest)
      let ⟨es, vs, _⟩ ← moreArguments us
      .ok ⟨e :: es, vs, by omega⟩
termination_by ts.length * 16 + 10
decreasing_by
  all_goals simp only [List.length_cons, Level.lowest, Level.rank] at *
  all_goals omega

def moreArguments (ts : List Token) : Except Failure (Read (List Expr) ts.length) :=
  match ts with
  | ⟨.symbol .comma, _, _⟩ :: rest => do
    let ⟨es, us, _⟩ ← arguments rest
    .ok ⟨es, us, by simp only [List.length_cons]; omega⟩
  | ts => do
    let ⟨_, us, _⟩ ← expect (.symbol .rightParen) (.missingDelimiter .rightParen) ts
    .ok ⟨[], us, by omega⟩
termination_by ts.length * 16
decreasing_by
  all_goals simp only [List.length_cons] at *
  all_goals omega

def entries (ts : List Token) : Except Failure (Read (List (Expr × Expr)) ts.length) :=
  match ts with
  | [] => .error ⟨.missingDelimiter .rightParen, []⟩
  | t :: rest =>
    if t.kind = .symbol .rightParen then .ok ⟨[], rest, Nat.lt_succ_self _⟩
    else do
      let ⟨key, us, _⟩ ← expression .lowest (t :: rest)
      let ⟨_, vs, _⟩ ← expectColon us
      let ⟨value, ws, _⟩ ← expression .lowest vs
      let ⟨more, xs, _⟩ ← moreEntries ws
      .ok ⟨(key, value) :: more, xs, by omega⟩
termination_by ts.length * 16 + 10
decreasing_by
  all_goals simp only [List.length_cons, Level.lowest, Level.rank] at *
  all_goals omega

def moreEntries (ts : List Token) : Except Failure (Read (List (Expr × Expr)) ts.length) :=
  match ts with
  | ⟨.symbol .comma, _, _⟩ :: rest => do
    let ⟨pairs, us, _⟩ ← entries rest
    .ok ⟨pairs, us, by simp only [List.length_cons]; omega⟩
  | ts => do
    let ⟨_, us, _⟩ ← expect (.symbol .rightParen) (.missingDelimiter .rightParen) ts
    .ok ⟨[], us, by omega⟩
termination_by ts.length * 16
decreasing_by
  all_goals simp only [List.length_cons] at *
  all_goals omega

end

end Miaou.Grammar
