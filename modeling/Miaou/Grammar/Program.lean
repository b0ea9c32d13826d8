import Miaou.Grammar.Stmt
import Miaou.Token.Layout

/-!
Reading whole scripts. A script stands between its opening and its closing word, and only line
ends may follow the closing word. `Program.ofTokens` reads the tokens before the first end token
and turns a failure into a fault at the offending token, or at the end.
-/

namespace Miaou

namespace Grammar

def statements (ts : List Token) : Except Failure (Read (List Stmt) (ts.length + 1)) :=
  match h : skipNewlines ts with
  | [] => .ok ⟨[], [], Nat.succ_pos _⟩
  | t :: rest =>
    have le := length_le_of_skipNewlines h
    if t.kind = .keyword .meow then .ok ⟨[], t :: rest, Nat.lt_succ_of_le le⟩
    else do
      let ⟨s, us, lt⟩ ← statement (t :: rest)
      have less := Nat.lt_of_lt_of_le lt le
      let ⟨ss, vs, most⟩ ← statements us
      .ok ⟨s :: ss, vs, Nat.lt_of_lt_of_le most (Nat.le_succ_of_le less)⟩
termination_by ts.length
decreasing_by exact less

def closing : List Token → Except Failure Unit
  | [] => .error ⟨.missingMeow, []⟩
  | t :: rest =>
    if t.kind = .keyword .meow then
      if skipNewlines rest = [] then .ok () else .error ⟨.prematureMeow, t :: rest⟩
    else .error ⟨.missingMeow, t :: rest⟩

def script (ts : List Token) : Except Failure Program :=
  if ts = [] then .error ⟨.emptyScript, []⟩
  else
    match skipNewlines ts with
    | ⟨.keyword .miaou, _, pos⟩ :: rest => do
      let ⟨body, us, _⟩ ← statements rest
      closing us
      .ok ⟨body, pos⟩
    | us => .error ⟨.missingMiaou, us⟩

end Grammar

namespace Program

def isEof (t : Token) : Bool := t.kind = .layout .eof

def body (ts : List Token) : List Token := ts.takeWhile fun t => !isEof t

/-- Where the end is: at the first end token or else at the last token. -/
def finish (ts : List Token) : Position :=
  match ts.find? isEof with
  | some t => t.position
  | none => (ts.getLast?.map Token.position).getD .start

/-- The fault a failure amounts to, in a script that ends at `finish`. -/
def faultOf (finish : Position) (failure : Grammar.Failure) : Fault :=
  match failure.rest with
  | [] => ⟨failure.cause, finish, ""⟩
  | t :: _ => ⟨failure.cause, t.position, t.lexeme⟩

def ofTokens (ts : List Token) : Except Fault Program :=
  (Grammar.script (body ts)).mapError (faultOf (finish ts))

end Program

/-- Reads a script: first its tokens, then their structure. -/
def parse (source : String) : Except Fault Program := do
  let ts ← tokenize source
  Program.ofTokens ts

end Miaou
