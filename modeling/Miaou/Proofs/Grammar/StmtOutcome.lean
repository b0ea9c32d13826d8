import Miaou.Proofs.Grammar.Outcome

/-!
The readers of statements, blocks and scripts without their bounds, as equations between
outcomes.
-/

namespace Miaou.Grammar

theorem outcome_line_end {ts : List Token} (h : endsLine ts = true) :
    outcome (lineOfExpressions ts) = .ok ([], ts) := by
  rw [lineOfExpressions, if_pos h]
  rfl

theorem outcome_line {ts : List Token} (h : endsLine ts = false) :
    outcome (lineOfExpressions ts) =
      outcome (expression (.chain .sum) ts) >>= fun (e, us) =>
        outcome (lineOfExpressions us) >>= fun (es, vs) => .ok (e :: es, vs) := by
  rw [lineOfExpressions, if_neg (by simp [h])]
  exact outcome_bind fun e us _ => outcome_bind fun es vs _ => rfl

/-! Parameters -/

theorem outcome_parameters_none {t : Token} (h : t.kind = .symbol .rightParen)
    (rest : List Token) : outcome (parameters (t :: rest)) = .ok ([], rest) := by
  rw [parameters.eq_def]
  dsimp only
  rw [if_pos h]
  rfl

theorem outcome_parameters_last {t u : Token} (h : t.kind = .identifier)
    (close : u.kind = .symbol .rightParen) (rest : List Token) :
    outcome (parameters (t :: u :: rest)) = .ok ([t.lexeme], rest) := by
  rw [parameters, if_neg (by simp [h]), if_pos h]
  dsimp only
  rw [if_neg (by simp [close]), if_pos close]
  rfl

theorem outcome_parameters {t u : Token} (h : t.kind = .identifier)
    (comma : u.kind = .symbol .comma) (rest : List Token) :
    outcome (parameters (t :: u :: rest)) =
      outcome (parameters rest) >>= fun (names, us) => .ok (t.lexeme :: names, us) := by
  rw [parameters, if_neg (by simp [h]), if_pos h]
  dsimp only
  rw [if_pos comma]
  exact outcome_bind fun names us _ => rfl

theorem outcome_parameters_unnamed {ts : List Token}
    (h : ∀ t ∈ ts.head?, t.kind ≠ .symbol .rightParen ∧ t.kind ≠ .identifier) :
    outcome (parameters ts) = .error ⟨.missingElement .parameterName, ts⟩ := by
  cases ts with
  | nil => rfl
  | cons t rest =>
    rw [parameters.eq_def]
    dsimp only
    rw [if_neg (h t rfl).1, if_neg (h t rfl).2]
    rfl

theorem outcome_parameters_open {t : Token} (h : t.kind = .identifier) {rest : List Token}
    (other : ∀ u ∈ rest.head?, u.kind ≠ .symbol .comma ∧ u.kind ≠ .symbol .rightParen) :
    outcome (parameters (t :: rest)) = .error ⟨.missingDelimiter .commaOrRightParen, rest⟩ := by
  rw [parameters.eq_def]
  dsimp only
  rw [if_neg (by simp [h]), if_pos h]
  cases rest with
  | nil => rfl
  | cons u us =>
    dsimp only
    rw [if_neg (other u rfl).1, if_neg (other u rfl).2]
    rfl

/-! Statements that begin with a name -/

theorem outcome_itemAssignment {t : Token} (h : t.kind = .symbol .assign)
    (pos place : Position) (object index : Expr) (rest : List Token) :
    outcome (itemAssignment pos (.item place object index) (t :: rest)) =
      outcome (expression .lowest rest) >>= fun (value, us) =>
        .ok (.assignIndex pos object index value, us) := by
  obtain ⟨kind, payload, p⟩ := t
  cases h
  rw [itemAssignment]
  exact outcome_bind fun value us _ => rfl

theorem outcome_itemAssignment_other {t : Token} (h : t.kind = .symbol .assign)
    (pos : Position) {target : Expr} (other : ∀ place object index,
      target ≠ .item place object index) (rest : List Token) :
    outcome (itemAssignment pos target (t :: rest)) =
      .error ⟨.unknownInstruction, t :: rest⟩ := by
  obtain ⟨kind, payload, p⟩ := t
  cases h
  rw [itemAssignment]
  · rfl
  · intro place object index
    exact other place object index

theorem outcome_itemAssignment_end (pos : Position) (target : Expr) {ts : List Token}
    (h : Lacks (.symbol .assign) ts) :
    outcome (itemAssignment pos target ts) = .ok (.expression pos target, ts) := by
  rw [itemAssignment.eq_def]
  split
  · exact absurd rfl (lacks_cons.mp h)
  · rfl

theorem outcome_assign (name : Token) {t : Token} (h : t.kind = .symbol .assign)
    (rest : List Token) :
    outcome (namedStatement name (t :: rest)) =
      outcome (expression .lowest rest) >>= fun (value, us) =>
        .ok (.assign name.position name.lexeme value, us) := by
  obtain ⟨kind, payload, pos⟩ := t
  cases h
  rw [namedStatement]
  exact outcome_bind fun value us _ => rfl

theorem outcome_assignItem (name : Token) {t : Token} (h : t.kind = .symbol .leftBracket)
    (rest : List Token) :
    outcome (namedStatement name (t :: rest)) =
      outcome (expression .postfixes (name :: t :: rest)) >>= fun (target, us) =>
        outcome (itemAssignment name.position target us) := by
  obtain ⟨kind, payload, pos⟩ := t
  cases h
  rw [namedStatement]
  exact outcome_bind fun target us _ => outcome_last fun s vs _ => rfl

theorem outcome_named (name : Token) {rest : List Token} (assign : Lacks (.symbol .assign) rest)
    (item : Lacks (.symbol .leftBracket) rest) :
    outcome (namedStatement name rest) =
      outcome (expression .lowest (name :: rest)) >>= fun (e, us) =>
        .ok (.expression name.position e, us) := by
  rw [namedStatement.eq_def]
  split
  · exact absurd rfl (lacks_cons.mp assign)
  · exact absurd rfl (lacks_cons.mp item)
  · exact outcome_bind fun e us _ => rfl

theorem outcome_returned_none {ts : List Token} (h : endsLine ts = true) :
    outcome (returned ts) = .ok (none, ts) := by
  rw [returned, if_pos h]
  rfl

theorem outcome_returned {ts : List Token} (h : endsLine ts = false) :
    outcome (returned ts) =
      outcome (expression .lowest ts) >>= fun (e, us) => .ok (some e, us) := by
  rw [returned, if_neg (by simp [h])]
  exact outcome_bind fun e us _ => rfl

/-! Statements -/

theorem outcome_print {t : Token} (h : t.kind = .keyword .ecrire) (rest : List Token) :
    outcome (statement (t :: rest)) =
      outcome (lineOfExpressions rest) >>= fun (given, us) =>
        .ok (.expression t.position (.call t.position "ecrire" given), us) := by
  obtain ⟨kind, payload, pos⟩ := t
  cases h
  rw [statement]
  exact outcome_bind fun given us _ => rfl

theorem outcome_branch {t : Token} (h : t.kind = .keyword .si) (rest : List Token) :
    outcome (statement (t :: rest)) =
      outcome (expression .lowest rest) >>= fun (condition, us) =>
        outcome (expectColon (skip (.keyword .alors) us)) >>= fun (_, vs) =>
          outcome (block vs) >>= fun (body, ws) =>
            outcome (clauses ws) >>= fun (more, xs) =>
              outcome (otherwise xs) >>= fun (last, ys) =>
                .ok (.branch t.position condition body more last, ys) := by
  obtain ⟨kind, payload, pos⟩ := t
  cases h
  rw [statement]
  exact outcome_bind fun condition us _ => outcome_bind fun _ vs _ => outcome_bind fun body ws _ =>
    outcome_bind fun more xs _ => outcome_bind fun last ys _ => rfl

theorem outcome_while {t : Token} (h : t.kind = .keyword .tantQue) (rest : List Token) :
    outcome (statement (t :: rest)) =
      outcome (expression .lowest rest) >>= fun (condition, us) =>
        outcome (expectColon us) >>= fun (_, vs) =>
          outcome (block vs) >>= fun (body, ws) =>
            .ok (.whileLoop t.position condition body, ws) := by
  obtain ⟨kind, payload, pos⟩ := t
  cases h
  rw [statement]
  exact outcome_bind fun condition us _ => outcome_bind fun _ vs _ => outcome_bind fun body ws _ =>
    rfl

theorem outcome_repeat {t : Token} (h : t.kind = .keyword .repeter) (rest : List Token) :
    outcome (statement (t :: rest)) =
      outcome (expression .lowest rest) >>= fun (count, us) =>
        outcome (expectColon (skip (.keyword .fois) us)) >>= fun (_, vs) =>
          outcome (block vs) >>= fun (body, ws) =>
            .ok (.repeatLoop t.position count body, ws) := by
  obtain ⟨kind, payload, pos⟩ := t
  cases h
  rw [statement]
  exact outcome_bind fun count us _ => outcome_bind fun _ vs _ => outcome_bind fun body ws _ => rfl

theorem outcome_forEach {t : Token} (h : t.kind = .keyword .pourChaque) (rest : List Token) :
    outcome (statement (t :: rest)) =
      outcome (expectName .variableName rest) >>= fun (name, us) =>
        outcome (expect (.keyword .dans) (.missingElement .dans) us) >>= fun (_, vs) =>
          outcome (expression .lowest vs) >>= fun (items, ws) =>
            outcome (expectColon ws) >>= fun (_, xs) =>
              outcome (block xs) >>= fun (body, ys) =>
                .ok (.forEach t.position name.lexeme items body, ys) := by
  obtain ⟨kind, payload, pos⟩ := t
  cases h
  rw [statement]
  exact outcome_bind fun name us _ => outcome_bind fun _ vs _ => outcome_bind fun items ws _ =>
    outcome_bind fun _ xs _ => outcome_bind fun body ys _ => rfl

theorem outcome_define {t : Token} (h : t.kind = .keyword .fonction) (rest : List Token) :
    outcome (statement (t :: rest)) =
      outcome (expectName .functionName rest) >>= fun (name, us) =>
        outcome (expect (.symbol .leftParen) (.missingDelimiter .leftParen) us) >>=
          fun (_, vs) => outcome (parameters vs) >>= fun (names, ws) =>
            outcome (expectColon ws) >>= fun (_, xs) =>
              outcome (block xs) >>= fun (body, ys) =>
                .ok (.define t.position name.lexeme names body, ys) := by
  obtain ⟨kind, payload, pos⟩ := t
  cases h
  rw [statement]
  exact outcome_bind fun name us _ => outcome_bind fun _ vs _ => outcome_bind fun names ws _ =>
    outcome_bind fun _ xs _ => outcome_bind fun body ys _ => rfl

theorem outcome_giveBack {t : Token} (h : t.kind = .keyword .retour) (rest : List Token) :
    outcome (statement (t :: rest)) =
      outcome (returned rest) >>= fun (value, us) => .ok (.giveBack t.position value, us) := by
  obtain ⟨kind, payload, pos⟩ := t
  cases h
  rw [statement]
  exact outcome_bind fun value us _ => rfl

theorem outcome_attempt {t : Token} (h : t.kind = .keyword .essayer) (rest : List Token) :
    outcome (statement (t :: rest)) =
      outcome (expectColon rest) >>= fun (_, us) =>
        outcome (block us) >>= fun (body, vs) =>
          outcome (expect (.keyword .sauf) (.missingElement .sauf) vs) >>= fun (_, ws) =>
            outcome (expectColon (skip (.keyword .erreur) ws)) >>= fun (_, xs) =>
              outcome (block xs) >>= fun (handler, ys) =>
                .ok (.attempt t.position body handler, ys) := by
  obtain ⟨kind, payload, pos⟩ := t
  cases h
  rw [statement]
  exact outcome_bind fun _ us _ => outcome_bind fun body vs _ => outcome_bind fun _ ws _ =>
    outcome_bind fun _ xs _ => outcome_bind fun handler ys _ => rfl

theorem outcome_import {t : Token} (h : t.kind = .keyword .importer) (rest : List Token) :
    outcome (statement (t :: rest)) =
      outcome (expectName .moduleName rest) >>= fun (name, us) =>
        .ok (.importModule t.position name.lexeme, us) := by
  obtain ⟨kind, payload, pos⟩ := t
  cases h
  rw [statement]
  exact outcome_bind fun name us _ => rfl

theorem outcome_namedStatement {t : Token} (h : t.kind = .identifier) (rest : List Token) :
    outcome (statement (t :: rest)) = outcome (namedStatement t rest) := by
  obtain ⟨kind, payload, pos⟩ := t
  cases h
  rw [statement]
  exact outcome_last fun s us _ => rfl

def misplaced? : Kind → Option Cause
  | .keyword .meow => some .prematureMeow
  | .keyword .miaou => some .misplacedMiaou
  | .keyword .sinon | .keyword .sinonSi => some .danglingElse
  | .layout .indent => some .badIndentation
  | _ => none

theorem outcome_misplaced {t : Token} {cause : Cause} (h : misplaced? t.kind = some cause)
    (rest : List Token) : outcome (statement (t :: rest)) = .error ⟨cause, t :: rest⟩ := by
  obtain ⟨kind, payload, pos⟩ := t
  unfold misplaced? at h
  split at h <;> cases h
  all_goals
    rename_i same
    dsimp only at same
    subst same
    rw [statement]
    rfl

def leads : Kind → Bool
  | .keyword .ecrire | .keyword .si | .keyword .tantQue | .keyword .repeter
  | .keyword .pourChaque | .keyword .fonction | .keyword .retour | .keyword .essayer
  | .keyword .importer | .identifier => true
  | _ => false

/-- What statement a token begins, if any. -/
inductive Form (t : Token) : Prop where
  | print (word : t.kind = .keyword .ecrire)
  | branch (word : t.kind = .keyword .si)
  | whileLoop (word : t.kind = .keyword .tantQue)
  | repeatLoop (word : t.kind = .keyword .repeter)
  | forEach (word : t.kind = .keyword .pourChaque)
  | define (word : t.kind = .keyword .fonction)
  | giveBack (word : t.kind = .keyword .retour)
  | attempt (word : t.kind = .keyword .essayer)
  | importModule (word : t.kind = .keyword .importer)
  | named (kind : t.kind = .identifier)
  | misplaced {cause : Cause} (found : misplaced? t.kind = some cause)
  | expression (plain : leads t.kind = false) (allowed : misplaced? t.kind = none)

theorem form (t : Token) : Form t := by
  cases found : misplaced? t.kind with
  | some cause => exact .misplaced found
  | none =>
    cases led : leads t.kind with
    | false => exact .expression led found
    | true =>
      unfold leads at led
      split at led
      · exact .print ‹_›
      · exact .branch ‹_›
      · exact .whileLoop ‹_›
      · exact .repeatLoop ‹_›
      · exact .forEach ‹_›
      · exact .define ‹_›
      · exact .giveBack ‹_›
      · exact .attempt ‹_›
      · exact .importModule ‹_›
      · exact .named ‹_›
      · cases led

theorem outcome_plain {t : Token} (other : leads t.kind = false)
    (allowed : misplaced? t.kind = none) (rest : List Token) :
    outcome (statement (t :: rest)) =
      outcome (expression .lowest (t :: rest)) >>= fun (e, us) =>
        .ok (.expression e.position e, us) := by
  rw [statement]
  split
  case h_16 => exact outcome_bind fun e us _ => rfl
  all_goals
    rename_i same
    rw [same] at other allowed
    first
    | exact absurd other (by decide)
    | exact absurd allowed (by decide)

theorem outcome_statement_nil : outcome (statement []) = .error ⟨.unknownInstruction, []⟩ := by
  rw [statement]
  rfl

/-! Blocks -/

theorem outcome_block {ts rest : List Token} {t : Token} (h : skipNewlines ts = t :: rest)
    (mark : t.kind = .layout .indent) : outcome (block ts) = outcome (blockBody rest) := by
  obtain ⟨kind, payload, pos⟩ := t
  cases mark
  rw [block]
  split
  · rename_i same
    rw [h] at same
    cases same
    exact outcome_last fun body us _ => rfl
  · rename_i other
    exact absurd h (other _ _ _)

theorem outcome_block_flat {ts : List Token} (h : Lacks (.layout .indent) (skipNewlines ts)) :
    outcome (block ts) = .error ⟨.badIndentation, skipNewlines ts⟩ := by
  rw [block]
  split
  · rename_i same
    rw [same] at h
    exact absurd rfl (lacks_cons.mp h)
  · rfl

theorem outcome_blockBody_nil {ts : List Token} (h : skipNewlines ts = []) :
    outcome (blockBody ts) = .ok ([], []) := by
  rw [blockBody]
  split
  · rfl
  · rename_i same
    rw [h] at same
    cases same

theorem outcome_blockBody_close {ts rest : List Token} {t : Token}
    (h : skipNewlines ts = t :: rest) (mark : t.kind = .layout .dedent) :
    outcome (blockBody ts) = .ok ([], rest) := by
  rw [blockBody]
  split
  · rename_i same
    rw [h] at same
    cases same
  · rename_i same
    rw [h] at same
    cases same
    rw [if_pos mark]
    rfl

theorem outcome_blockBody {ts rest : List Token} {t : Token} (h : skipNewlines ts = t :: rest)
    (mark : t.kind ≠ .layout .dedent) :
    outcome (blockBody ts) =
      outcome (statement (t :: rest)) >>= fun (s, us) =>
        outcome (blockBody us) >>= fun (ss, vs) => .ok (s :: ss, vs) := by
  rw [blockBody]
  split
  · rename_i same
    rw [h] at same
    cases same
  · rename_i same
    rw [h] at same
    cases same
    rw [if_neg mark]
    exact outcome_bind fun s us _ => outcome_bind fun ss vs _ => rfl

theorem outcome_clauses {t : Token} (h : t.kind = .keyword .sinonSi) (rest : List Token) :
    outcome (clauses (t :: rest)) =
      outcome (expression .lowest rest) >>= fun (condition, us) =>
        outcome (expectColon (skip (.keyword .alors) us)) >>= fun (_, vs) =>
          outcome (block vs) >>= fun (body, ws) =>
            outcome (clauses ws) >>= fun (more, xs) => .ok ((condition, body) :: more, xs) := by
  obtain ⟨kind, payload, pos⟩ := t
  cases h
  rw [clauses]
  exact outcome_bind fun condition us _ => outcome_bind fun _ vs _ => outcome_bind fun body ws _ =>
    outcome_bind fun more xs _ => rfl

theorem outcome_clauses_end {ts : List Token} (h : Lacks (.keyword .sinonSi) ts) :
    outcome (clauses ts) = .ok ([], ts) := by
  rw [clauses.eq_def]
  split
  · exact absurd rfl (lacks_cons.mp h)
  · rfl

theorem outcome_otherwise {t : Token} (h : t.kind = .keyword .sinon) (rest : List Token) :
    outcome (otherwise (t :: rest)) =
      outcome (expectColon rest) >>= fun (_, us) =>
        outcome (block us) >>= fun (body, vs) => .ok (some body, vs) := by
  obtain ⟨kind, payload, pos⟩ := t
  cases h
  rw [otherwise]
  exact outcome_bind fun _ us _ => outcome_bind fun body vs _ => rfl

theorem outcome_otherwise_end {ts : List Token} (h : Lacks (.keyword .sinon) ts) :
    outcome (otherwise ts) = .ok (none, ts) := by
  rw [otherwise.eq_def]
  split
  · exact absurd rfl (lacks_cons.mp h)
  · rfl

/-! Scripts -/

theorem outcome_statements_nil {ts : List Token} (h : skipNewlines ts = []) :
    outcome (statements ts) = .ok ([], []) := by
  rw [statements]
  split
  · rfl
  · rename_i same
    rw [h] at same
    cases same

theorem outcome_statements_close {ts rest : List Token} {t : Token}
    (h : skipNewlines ts = t :: rest) (word : t.kind = .keyword .meow) :
    outcome (statements ts) = .ok ([], t :: rest) := by
  rw [statements]
  split
  · rename_i same
    rw [h] at same
    cases same
  · rename_i same
    rw [h] at same
    cases same
    dsimp only
    rw [if_pos word]
    rfl

theorem outcome_statements {ts rest : List Token} {t : Token} (h : skipNewlines ts = t :: rest)
    (word : t.kind ≠ .keyword .meow) :
    outcome (statements ts) =
      outcome (statement (t :: rest)) >>= fun (s, us) =>
        outcome (statements us) >>= fun (ss, vs) => .ok (s :: ss, vs) := by
  rw [statements]
  split
  · rename_i same
    rw [h] at same
    cases same
  · rename_i same
    rw [h] at same
    cases same
    dsimp only
    rw [if_neg word]
    exact outcome_bind fun s us _ => outcome_bind fun ss vs _ => rfl

theorem script_open {ts rest : List Token} {t : Token} (h : skipNewlines ts = t :: rest)
    (word : t.kind = .keyword .miaou) :
    script ts = outcome (statements rest) >>= fun (body, us) =>
      closing us >>= fun _ => .ok ⟨body, t.position⟩ := by
  have ne : ts ≠ [] := by
    rintro rfl
    cases h
  obtain ⟨kind, payload, pos⟩ := t
  cases word
  rw [script, if_neg ne]
  split
  · rename_i same
    rw [h] at same
    cases same
    cases statements rest <;> rfl
  · rename_i other
    exact absurd h (other _ _ _)

theorem script_closed {ts : List Token} (ne : ts ≠ [])
    (h : Lacks (.keyword .miaou) (skipNewlines ts)) :
    script ts = .error ⟨.missingMiaou, skipNewlines ts⟩ := by
  rw [script, if_neg ne]
  split
  · rename_i same
    rw [same] at h
    exact absurd rfl (lacks_cons.mp h)
  · rfl

end Miaou.Grammar
