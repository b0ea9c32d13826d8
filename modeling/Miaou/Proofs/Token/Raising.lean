import Miaou.Proofs.Diagnostic.Raising
import Miaou.Proofs.Token.Advance

/-!
Scanning with a catalog at hand. The loop is that of the scanner, but what is wrong is raised on the
spot, by its code. It halts exactly where the scanner meets a fault, with the diagnostic of that
fault.
-/

namespace Miaou.Raising

open Lexeme Piece

inductive Step where
  | goes (next : Scanner)
  | ends (tokens : List Token)

section

variable (reporter : Reporter)

def quoted (start : Position) (quote : Char) : List Char → Except Halt (List Char × Nat)
  | [] => .error (reporter.raise .unterminatedString none start (.ofList [quote]))
  | c :: cs =>
    if c = quote then .ok ([], 1)
    else if c = '\\' then
      match cs with
      | [] => .error (reporter.raise .unterminatedString none start (.ofList [quote]))
      | d :: ds => do
        let (value, size) ← quoted start quote ds
        .ok (Text.unescape d :: value, size + 2)
    else do
      let (value, size) ← quoted start quote cs
      .ok (c :: value, size + 1)

def string (start : Position) (quote : Char) (cs : List Char) : Except Halt Lexeme := do
  let (value, size) ← quoted reporter start quote cs
  .ok ⟨.string, .str (.ofList value), size + 1⟩

def number (start : Position) (cs : List Char) : Except Halt Lexeme :=
  let whole := cs.takeWhile Char.isDigit
  let part := fraction (cs.dropWhile Char.isDigit)
  if part ≠ [] then
    .ok ⟨.number, .float (.ofDecimal false (Digits.value (whole ++ part)) (-part.length)),
      whole.length + 1 + part.length⟩
  else if Digits.value whole ≤ largest then
    .ok ⟨.number, .int (Digits.value whole), whole.length⟩
  else .error (reporter.raise .valueOverflow none start (.ofList whole))

def symbol (start : Position) (c : Char) (cs : List Char) : Except Halt Lexeme :=
  match symbol? (c :: cs) with
  | some sign => .ok ⟨.symbol sign, .str sign.text, sign.text.length⟩
  | none =>
    if c = '!' then .error (reporter.raise .unknownInstruction none start "!")
    else .error (reporter.raise .unknownInstruction none start (.ofList [c]))

def lexeme (start : Position) (c : Char) (cs : List Char) : Except Halt Lexeme :=
  if c = '"' || c = '\'' then string reporter start c cs
  else if c.isDigit then number reporter start (c :: cs)
  else if startsWord c then .ok (readWord (c :: cs))
  else symbol reporter start c cs

def settle (width : Nat) (x : Scanner) : Except Halt Step :=
  match x.rest with
  | [] => .ok (.ends x.closed)
  | c :: cs =>
    if c = '\n' then .ok (.goes (x.pass 1))
    else if c = '#' then .ok (.goes (x.pass (comment cs).length.succ))
    else
      match Layout.adjust x.position.line width x.blocks with
      | none => .error (reporter.raise .badIndentation none x.position "")
      | some (marks, still) =>
        .ok (.goes { x with fresh := false, blocks := still, tokens := x.tokens ++ marks })

def inside (x : Scanner) : Except Halt Step :=
  match x.rest with
  | [] => .ok (.ends x.closed)
  | c :: cs =>
    if c = '\n' then
      .ok (.goes { x.pass 1 with fresh := true, tokens := x.tokens ++ [.newline x.position] })
    else if isInline c then .ok (.goes (x.pass 1))
    else if c = '#' then .ok (.goes (x.pass (comment cs).length.succ))
    else do
      let l ← lexeme reporter x.position c cs
      .ok (.goes { x.pass l.size with tokens := x.tokens ++ [⟨l.kind, l.payload, x.position⟩] })

def turn (x : Scanner) : Except Halt Step :=
  if x.fresh then
    let blanks := x.rest.takeWhile isInline
    settle reporter (indentation blanks) (x.pass blanks.length)
  else inside reporter x

def loop : Nat → Scanner → Except Halt (List Token)
  | 0, _ => .error .exhausted
  | fuel + 1, x => do
    match ← turn reporter x with
    | .goes y => loop fuel y
    | .ends ts => .ok ts

def tokenize (fuel : Nat) (source : String) : Except Halt (List Token) :=
  loop reporter fuel (.begin source.toList)

end

variable {reporter : Reporter} {start : Position}

theorem raise_eq (cause : Cause) {code : Code} (same : cause.code = code)
    (names : cause.expected? = none) (p : Position) (text : String) :
    reporter.raise code none p text = reporter.halt ⟨cause, p, text⟩ :=
  Reporter.raise_eq_halt ⟨cause, p, text⟩ same names

theorem quoted_eq (quote : Char) (cs : List Char) :
    quoted reporter start quote cs =
      match Lexeme.quoted? quote cs with
      | some found => .ok found
      | none => .error (reporter.halt ⟨.unclosedString, start, .ofList [quote]⟩) := by
  have raised : reporter.raise .unterminatedString none start (.ofList [quote]) =
      reporter.halt ⟨.unclosedString, start, .ofList [quote]⟩ :=
    raise_eq .unclosedString rfl rfl _ _
  fun_induction Lexeme.quoted? quote cs with
  | case1 => exact congrArg Except.error raised
  | case2 cs =>
    rw [quoted.eq_def]
    exact if_pos rfl
  | case3 other => simp only [quoted, other, if_false, if_true, raised]
  | case4 d ds other ih =>
    simp only [quoted, other, if_false, if_true, ih]
    cases Lexeme.quoted? quote ds <;> rfl
  | case5 c cs other plain ih =>
    rw [quoted.eq_def]
    simp only [other, plain, if_false, ih]
    cases Lexeme.quoted? quote cs <;> rfl

def told (reporter : Reporter) (start : Position) (e : Misreading) : Halt :=
  reporter.halt ⟨e.cause, start, .ofList e.text⟩

theorem string_eq (quote : Char) (cs : List Char) :
    string reporter start quote cs = (readString quote cs).mapError (told reporter start) := by
  rw [string, readString, quoted_eq]
  cases Lexeme.quoted? quote cs <;> rfl

theorem number_eq (cs : List Char) :
    number reporter start cs = (readNumber cs).mapError (told reporter start) := by
  rw [number, readNumber, ofNumber]
  split
  · rfl
  split
  · rfl
  · exact congrArg Except.error (raise_eq .overflow rfl rfl _ _)

theorem symbol_eq (c : Char) (cs : List Char) :
    symbol reporter start c cs = (readSymbol c cs).mapError (told reporter start) := by
  rw [symbol, readSymbol]
  cases symbol? (c :: cs) with
  | some sign => rfl
  | none =>
    dsimp only
    split
    · subst c
      exact congrArg Except.error (raise_eq .unknownInstruction rfl rfl _ _)
    · exact congrArg Except.error (raise_eq .unknownInstruction rfl rfl _ _)

theorem lexeme_eq (c : Char) (cs : List Char) :
    lexeme reporter start c cs = (Lexeme.read c cs).mapError (told reporter start) := by
  rw [lexeme, Lexeme.read, string_eq, number_eq, symbol_eq]
  split
  · rfl
  split
  · rfl
  split <;> rfl

def ofTurn (reporter : Reporter) : Scanner.Turn → Except Halt Step
  | .goes y => .ok (.goes y)
  | .ends ts => .ok (.ends ts)
  | .fails fault => .error (reporter.halt fault)

theorem settle_eq (width : Nat) (x : Scanner) :
    settle reporter width x = ofTurn reporter (x.settle width) := by
  rw [settle, Scanner.settle]
  cases x.rest with
  | nil => rfl
  | cons c cs =>
    dsimp only
    split
    · rfl
    split
    · rfl
    cases Layout.adjust x.position.line width x.blocks with
    | none => exact congrArg Except.error (raise_eq .badIndentation rfl rfl _ _)
    | some found => rfl

theorem inside_eq (x : Scanner) : inside reporter x = ofTurn reporter x.advance := by
  rw [inside, Scanner.advance]
  cases x.rest with
  | nil => rfl
  | cons c cs =>
    dsimp only
    split
    · rfl
    split
    · rfl
    split
    · rfl
    rw [lexeme_eq]
    cases Lexeme.read c cs <;> rfl

theorem turn_eq (x : Scanner) : turn reporter x = ofTurn reporter x.turn := by
  rw [turn, Scanner.turn, Scanner.enter, settle_eq, inside_eq]
  split <;> rfl

theorem loop_eq {fuel : Nat} {x : Scanner} {result : Except Fault (List Token)}
    (h : Scanner.loop fuel x = some result) :
    loop reporter fuel x = result.mapError reporter.halt := by
  induction fuel generalizing x with
  | zero => cases h
  | succ fuel ih =>
    rw [Scanner.loop, Scanner.iteration_eq_turn] at h
    rw [loop, turn_eq]
    cases turned : x.turn with
    | goes y =>
      rw [turned] at h
      exact ih h
    | ends ts =>
      rw [turned] at h
      cases h
      rfl
    | fails fault =>
      rw [turned] at h
      cases h
      rfl

/-- On two turns for each character and two more, the loop halts exactly at the fault of a script,
and with the diagnostic of this fault. -/
theorem tokenize_eq {fuel : Nat} (source : String) (enough : 2 * source.length + 2 ≤ fuel) :
    tokenize reporter fuel source = (Miaou.tokenize source).mapError reporter.halt := by
  refine loop_eq ?_
  have left : (Scanner.begin source.toList).left < fuel := by
    simp only [Scanner.begin, Scanner.left, Bool.toNat_true, String.length_toList]
    omega
  rw [Scanner.loop_eq_remaining left (Scanner.placed_begin _), Scanner.remaining_begin]
  rfl

end Miaou.Raising
