import Miaou.Proofs.Grammar.Law

/-!
Laws of reading for statements, blocks and the body of a script.
-/

namespace Miaou.Grammar

namespace Reader

def lineOfExpressions : Reader (List Expr) := fun ts => outcome (Grammar.lineOfExpressions ts)

def parameters : Reader (List String) := fun ts => outcome (Grammar.parameters ts)

def itemAssignment (pos : Position) (target : Expr) : Reader Stmt := fun ts =>
  outcome (Grammar.itemAssignment pos target ts)

def namedStatement (name : Token) : Reader Stmt := fun ts =>
  outcome (Grammar.namedStatement name ts)

def returned : Reader (Option Expr) := fun ts => outcome (Grammar.returned ts)

end Reader

def inStatement : Kind → Bool
  | .keyword .miaou | .keyword .meow | .layout .eof => false
  | _ => true

def blamesStatement : Cause → Bool
  | .prematureMeow | .misplacedMiaou | .danglingElse | .badIndentation => true
  | cause => blamesExpression cause

theorem inStatement_of_inExpression {kind : Kind} (h : inExpression kind = true) :
    inStatement kind = true := by
  unfold inExpression at h
  split at h <;> first | rfl | cases h

theorem blamesStatement_of_blamesExpression {cause : Cause}
    (h : blamesExpression cause = true) : blamesStatement cause = true := by
  unfold blamesExpression at h
  split at h <;> first | rfl | cases h

theorem blamesStatement_misplaced {kind : Kind} {cause : Cause}
    (h : misplaced? kind = some cause) : blamesStatement cause = true := by
  unfold misplaced? at h
  split at h <;> cases h <;> rfl

abbrev StmtGoal.Kept (P : Property) (goal : StmtGoal) (ts : List Token) : Prop := P goal.reader ts

theorem skipNewlines_newline {t : Token} (h : t.kind = .layout .newline) (ts : List Token) :
    skipNewlines (t :: ts) = skipNewlines ts := by
  rw [skipNewlines, List.dropWhile_cons_of_pos (by simpa using h), skipNewlines]

theorem skipNewlines_lacks {ts : List Token} (h : Lacks (.layout .newline) ts) :
    skipNewlines ts = ts := by
  cases ts with
  | nil => rfl
  | cons t rest =>
    rw [skipNewlines, List.dropWhile_cons_of_neg (by simpa using lacks_cons.mp h)]

theorem endsLine_head? {ts us : List Token} (head : us.head? = ts.head?) :
    endsLine us = endsLine ts := by
  cases ts with
  | nil =>
    cases us with
    | nil => rfl
    | cons u us => cases head
  | cons t rest =>
    cases us with
    | nil => cases head
    | cons u us =>
      cases head
      rfl

namespace Law

variable {P : Property} {kinds : Kind → Bool} {causes : Cause → Bool}

section Phrases

variable (law : Law P kinds causes) (within : ∀ kind, inExpression kind = true → kinds kind = true)
  (blames : ∀ cause, blamesStatement cause = true → causes cause = true)
  (looksAhead : LooksAhead P)

include law

theorem lines {α : Type} {r r' : Reader α} {ts : List Token}
    (passed : kinds (.layout .newline) = true) (h : P r' (skipNewlines ts))
    (same : ∀ us, (skipNewlines us).head? = (skipNewlines ts).head? →
      r us = r' (skipNewlines us)) : P r ts := by
  induction ts generalizing r with
  | nil =>
    refine law.alike h (of_head?_nil ?_)
    exact same [] rfl
  | cons t rest ih =>
    by_cases mark : t.kind = .layout .newline
    · have next : P (fun us => r (t :: us)) rest := by
        refine ih (by rwa [skipNewlines_newline mark] at h) fun us head => ?_
        rw [same (t :: us) (by rwa [skipNewlines_newline mark, skipNewlines_newline mark]),
          skipNewlines_newline mark]
      exact law.step (mark ▸ passed) next fun us => rfl
    · have kept (us : List Token) : skipNewlines (t :: us) = t :: us :=
        skipNewlines_lacks (lacks_cons.mpr mark)
      rw [kept rest] at h same
      refine law.alike h (of_head?_cons fun us => ?_)
      rw [same (t :: us) (by rw [kept us]; rfl), kept us]

theorem lines_cons {α : Type} {r r' : Reader α} {t : Token} {ts rest : List Token}
    (passed : kinds (.layout .newline) = true) (found : skipNewlines ts = t :: rest)
    (h : P r' (t :: rest)) (same : ∀ us vs, skipNewlines us = t :: vs → r us = r' (t :: vs)) :
    P r ts := by
  refine law.lines passed (found ▸ h) fun us head => ?_
  rw [found] at head
  cases next : skipNewlines us with
  | nil =>
    rw [next] at head
    cases head
  | cons u vs =>
    rw [next] at head
    cases head
    exact same us vs next

theorem lines_nil {α : Type} {r r' : Reader α} {ts : List Token}
    (passed : kinds (.layout .newline) = true) (found : skipNewlines ts = [])
    (h : P r' []) (same : ∀ us, skipNewlines us = [] → r us = r' []) : P r ts := by
  refine law.lines passed (found ▸ h) fun us head => ?_
  rw [found, List.head?_nil, List.head?_eq_none_iff] at head
  rw [head]
  exact same us head

theorem skip {α : Type} {r : Reader α} {kind : Kind} (passed : kinds kind = true)
    (ts : List Token) (h : P r (Grammar.skip kind ts)) :
    P (fun us => r (Grammar.skip kind us)) ts := by
  cases ts with
  | nil => exact law.alike h (of_head?_nil rfl)
  | cons t rest =>
    by_cases same : t.kind = kind
    · have next (us : List Token) : Grammar.skip kind (t :: us) = us := if_pos same
      rw [next rest] at h
      exact law.step (same ▸ passed) h fun us => by rw [next us]
    · have kept (us : List Token) : Grammar.skip kind (t :: us) = t :: us := if_neg same
      rw [kept rest] at h
      exact law.alike h (of_head?_cons fun us => by rw [kept us])

include within blames looksAhead

theorem expression (level : Level) (ts : List Token) : P (Reader.expression level) ts :=
  law.expressions within (fun cause h => blames cause (blamesStatement_of_blamesExpression h))
    looksAhead (.expression level) ts

theorem lineOfExpressions (ts : List Token) : P Reader.lineOfExpressions ts := by
  induction ts using lineOfExpressions.induct with
  | case1 ts ends =>
    exact law.stop fun us head => outcome_line_end ((endsLine_head? head).trans ends)
  | case2 ts ends further =>
    rw [Bool.not_eq_true] at ends
    exact law.alike (law.andThen (law.expression within blames looksAhead (.chain .sum) ts)
      fun e us read => law.map (further us (outcome_rest_lt read)) (e :: ·))
      fun us head => outcome_line ((endsLine_head? head).trans ends)

theorem returned (ts : List Token) : P Reader.returned ts := by
  cases ends : endsLine ts with
  | true => exact law.stop fun us head => outcome_returned_none ((endsLine_head? head).trans ends)
  | false =>
    exact law.alike (law.map (law.expression within blames looksAhead .lowest ts) some)
      fun us head => outcome_returned ((endsLine_head? head).trans ends)

omit looksAhead

theorem parameters (ts : List Token) : P Reader.parameters ts := by
  have element : causes (.missingElement .parameterName) = true := blames _ rfl
  have delimiter : causes (.missingDelimiter .commaOrRightParen) = true := blames _ rfl
  have word {t : Token} {kind : Kind} (same : t.kind = kind) (member : inExpression kind = true) :
      kinds t.kind = true := within _ (by rw [same]; exact member)
  -- What comes behind a name, wherever the list goes on.
  have behind (t : Token) {us : List Token}
      (h : P (fun vs => Reader.parameters (t :: vs)) us) (kind : t.kind = .identifier) :
      P Reader.parameters (t :: us) := law.step (word kind rfl) h fun _ => rfl
  induction ts using parameters.induct with
  | case1 => exact law.refuse element (of_head?_nil (outcome_parameters_unnamed (by simp)))
  | case2 t rest close =>
    exact law.step (word close rfl) (law.done [] rest) fun us => outcome_parameters_none close us
  | case3 t _ kind =>
    exact behind t
      (law.refuse delimiter (of_head?_nil (outcome_parameters_open kind (by simp)))) kind
  | case4 t _ kind u rest comma ih =>
    exact behind t (law.step (word comma rfl) (law.map ih (t.lexeme :: ·))
      fun us => outcome_parameters kind comma us) kind
  | case5 t _ kind u rest _ close =>
    exact behind t (law.step (word close rfl) (law.done [t.lexeme] rest)
      fun us => outcome_parameters_last kind close us) kind
  | case6 t _ kind u rest comma close =>
    exact behind t (law.refuse delimiter (of_head?_cons fun us =>
      outcome_parameters_open kind (by simpa using ⟨comma, close⟩))) kind
  | case7 t rest close kind =>
    exact law.refuse element (of_head?_cons fun us =>
      outcome_parameters_unnamed (by simpa using ⟨close, kind⟩))

include looksAhead

theorem itemAssignment (pos : Position) (target : Expr) (ts : List Token) :
    P (Reader.itemAssignment pos target) ts := by
  rcases lacks_or_cons (.symbol .assign) ts with lacks | ⟨t, rest, rfl, mark⟩
  · exact law.stop fun us head => outcome_itemAssignment_end pos target (lacks.alike head)
  · by_cases item : ∃ place object index, target = .item place object index
    · obtain ⟨place, object, index, rfl⟩ := item
      exact law.step (within _ (by rw [mark]; rfl))
        (law.map (law.expression within blames looksAhead .lowest rest)
          (Stmt.assignIndex pos object index))
        fun us => outcome_itemAssignment mark pos place object index us
    · have other : ∀ place object index, target ≠ .item place object index :=
        fun place object index same => item ⟨place, object, index, same⟩
      exact law.refuse (blames .unknownInstruction rfl) (of_head?_cons fun us =>
        outcome_itemAssignment_other mark pos other us)

theorem named {name : Token} (kind : name.kind = .identifier) (rest : List Token) :
    P Reader.statement (name :: rest) := by
  have inside {t : Token} {kind : Kind} (same : t.kind = kind) (member : inExpression kind = true) :
      kinds t.kind = true := within _ (by rw [same]; exact member)
  let object : Expr := .identifier name.position name.lexeme
  -- An expression that begins with the name goes on behind it.
  have begun (level : Level) (us : List Token) :
      Reader.expression level (name :: us) = Reader.behind level object us := by
    have opening : opens name = true := by simp [opens, kind]
    rw [Reader.expression_behind opening, Reader.andThen, Reader.primary, outcome_identifier kind]
    rfl
  have behind := law.behind within
    (fun cause h => blames cause (blamesStatement_of_blamesExpression h)) looksAhead
  suffices P (fun us => Reader.statement (name :: us)) rest from
    law.step (inside kind rfl) this fun us => rfl
  have whole (us : List Token) :
      Reader.statement (name :: us) = Reader.namedStatement name us :=
    outcome_namedStatement kind us
  rcases lacks_or_cons (.symbol .assign) rest with noAssign | ⟨t, us, rfl, mark⟩
  · rcases lacks_or_cons (.symbol .leftBracket) rest with noItem | ⟨t, us, rfl, mark⟩
    · refine law.alike (law.map (behind .lowest object rest) fun e =>
        Stmt.expression name.position e) fun us head => ?_
      rw [whole, Reader.andThen, ← begun]
      exact outcome_named name (noAssign.alike head) (noItem.alike head)
    · refine law.alike (law.andThen (behind .postfixes object (t :: us)) fun target vs _ =>
        law.itemAssignment within blames looksAhead name.position target vs)
        (of_head?_cons fun us => ?_)
      rw [whole, Reader.andThen, ← begun]
      exact outcome_assignItem name mark us
  · have value := law.expression within blames looksAhead .lowest us
    refine law.step (inside mark rfl)
      (law.map value (Stmt.assign name.position name.lexeme)) fun us => ?_
    rw [whole]
    exact outcome_assign name mark us

end Phrases

section Statements

variable (law : Law P kinds causes) (within : ∀ kind, inStatement kind = true → kinds kind = true)
  (blames : ∀ cause, blamesStatement cause = true → causes cause = true)
  (looksAhead : LooksAhead P)

include law within blames

theorem colon (ts : List Token) :
    P (Reader.expect (.symbol .colon) (.missingElement .colon)) ts :=
  law.expect (within _ rfl) (blames _ rfl) ts

theorem name (element : Element) (ts : List Token) :
    P (Reader.expect .identifier (.missingElement element)) ts :=
  law.expect (within _ rfl) (blames _ rfl) ts

include looksAhead

theorem lowest (ts : List Token) : P (Reader.expression .lowest) ts :=
  law.expression (fun kind h => within kind (inStatement_of_inExpression h)) blames looksAhead
    .lowest ts

section Forms

variable {t : Token} {rest : List Token} (inner : UpTo (StmtGoal.Kept P) rest.length)

include inner

theorem branch_kept (word : t.kind = .keyword .si) : P Reader.statement (t :: rest) :=
  law.step (within _ (by rw [word]; rfl))
    (law.andThen (law.lowest within blames looksAhead rest) fun condition us test =>
      law.skip (within (.keyword .alors) rfl) us
        (law.andThen (law.colon within blames _) fun _ vs mark =>
          have body := (inner.after (outcome_rest_lt test)).colon mark
          law.andThen (body.here .block) fun ss ws read =>
            have more := body.after (outcome_rest_lt read)
            law.andThen (more.here .clauses) fun cs xs read' =>
              have last := more.mono (Nat.le_of_lt_succ (outcome_rest_lt read'))
              law.map (last.here .otherwise) (Stmt.branch t.position condition ss cs)))
    fun us => outcome_branch word us

theorem whileLoop_kept (word : t.kind = .keyword .tantQue) : P Reader.statement (t :: rest) :=
  law.step (within _ (by rw [word]; rfl))
    (law.andThen (law.lowest within blames looksAhead rest) fun condition us test =>
      law.andThen (law.colon within blames us) fun _ vs mark =>
        have body := (inner.after (outcome_rest_lt test)).after (outcome_rest_lt mark)
        law.map (body.here .block) (Stmt.whileLoop t.position condition))
    fun us => outcome_while word us

theorem repeatLoop_kept (word : t.kind = .keyword .repeter) : P Reader.statement (t :: rest) :=
  law.step (within _ (by rw [word]; rfl))
    (law.andThen (law.lowest within blames looksAhead rest) fun count us times =>
      law.skip (within (.keyword .fois) rfl) us
        (law.andThen (law.colon within blames _) fun _ vs mark =>
          have body := (inner.after (outcome_rest_lt times)).colon mark
          law.map (body.here .block) (Stmt.repeatLoop t.position count)))
    fun us => outcome_repeat word us

theorem forEach_kept (word : t.kind = .keyword .pourChaque) : P Reader.statement (t :: rest) :=
  law.step (within _ (by rw [word]; rfl))
    (law.andThen (law.name within blames .variableName rest) fun name us called =>
      law.andThen (law.expect (within (.keyword .dans) rfl) (blames (.missingElement .dans) rfl) us)
        fun _ vs among => law.andThen (law.lowest within blames looksAhead vs) fun items ws whole =>
          law.andThen (law.colon within blames ws) fun _ xs mark =>
            have behind := (inner.after (outcome_rest_lt called)).after (outcome_rest_lt among)
            have body := (behind.after (outcome_rest_lt whole)).after (outcome_rest_lt mark)
            law.map (body.here .block) (Stmt.forEach t.position name.lexeme items))
    fun us => outcome_forEach word us

omit looksAhead in
theorem define_kept (word : t.kind = .keyword .fonction) : P Reader.statement (t :: rest) := by
  have given (ts : List Token) : P Reader.parameters ts :=
    law.parameters (fun kind h => within kind (inStatement_of_inExpression h)) blames ts
  exact law.step (within _ (by rw [word]; rfl))
    (law.andThen (law.name within blames .functionName rest) fun name us called =>
      law.andThen (law.expect (within (.symbol .leftParen) rfl)
        (blames (.missingDelimiter .leftParen) rfl) us) fun _ vs opened =>
          law.andThen (given vs) fun names ws read =>
            law.andThen (law.colon within blames ws) fun _ xs mark =>
              have behind := (inner.after (outcome_rest_lt called)).after (outcome_rest_lt opened)
              have body := (behind.after (outcome_rest_lt read)).after (outcome_rest_lt mark)
              law.map (body.here .block) (Stmt.define t.position name.lexeme names))
    fun us => outcome_define word us

omit looksAhead in
theorem attempt_kept (word : t.kind = .keyword .essayer) : P Reader.statement (t :: rest) :=
  law.step (within _ (by rw [word]; rfl))
    (law.andThen (law.colon within blames rest) fun _ us mark =>
      have body := inner.after (outcome_rest_lt mark)
      law.andThen (body.here .block) fun ss vs read =>
        law.andThen (law.expect (within (.keyword .sauf) rfl)
          (blames (.missingElement .sauf) rfl) vs) fun _ ws caught =>
            law.skip (within (.keyword .erreur) rfl) ws
              (law.andThen (law.colon within blames _) fun _ xs mark' =>
                have behind := (body.after (outcome_rest_lt read)).after (outcome_rest_lt caught)
                have handler := behind.colon mark'
                law.map (handler.here .block) (Stmt.attempt t.position ss)))
    fun us => outcome_attempt word us

end Forms

variable {ts : List Token}

theorem statement_kept (before : Before StmtGoal.rank (StmtGoal.Kept P) .statement ts) :
    P Reader.statement ts := by
  have within' (kind : Kind) (h : inExpression kind = true) : kinds kind = true :=
    within kind (inStatement_of_inExpression h)
  cases ts with
  | nil => exact law.refuse (blames .unknownInstruction rfl) (of_head?_nil outcome_statement_nil)
  | cons t rest =>
  cases form t with
  | print word =>
    exact law.step (within _ (by rw [word]; rfl))
      (law.map (law.lineOfExpressions within' blames looksAhead rest)
        fun es => Stmt.expression t.position (.call t.position "ecrire" es))
      fun us => outcome_print word us
  | branch word => exact law.branch_kept within blames looksAhead before.rest word
  | whileLoop word => exact law.whileLoop_kept within blames looksAhead before.rest word
  | repeatLoop word => exact law.repeatLoop_kept within blames looksAhead before.rest word
  | forEach word => exact law.forEach_kept within blames looksAhead before.rest word
  | define word => exact law.define_kept within blames before.rest word
  | giveBack word =>
    exact law.step (within _ (by rw [word]; rfl))
      (law.map (law.returned within' blames looksAhead rest) (Stmt.giveBack t.position))
      fun us => outcome_giveBack word us
  | attempt word => exact law.attempt_kept within blames before.rest word
  | importModule word =>
    exact law.step (within _ (by rw [word]; rfl))
      (law.map (law.name within blames .moduleName rest)
        fun name => Stmt.importModule t.position name.lexeme)
      fun us => outcome_import word us
  | named kind => exact law.named within' blames looksAhead kind rest
  | misplaced found =>
    exact law.refuse (blames _ (blamesStatement_misplaced found))
      (of_head?_cons fun us => outcome_misplaced found us)
  | expression plain allowed =>
    exact law.alike (law.map (law.lowest within blames looksAhead (t :: rest))
      fun e => Stmt.expression e.position e)
      (of_head?_cons fun us => outcome_plain plain allowed us)

omit looksAhead

theorem block_kept (before : Before StmtGoal.rank (StmtGoal.Kept P) .block ts) :
    P Reader.block ts := by
  have newline : kinds (.layout .newline) = true := within _ rfl
  rcases lacks_or_cons (.layout .indent) (Grammar.skipNewlines ts) with
    flat | ⟨t, rest, found, mark⟩
  · exact law.lines newline (law.fail _ (blames .badIndentation rfl) (skipNewlines ts))
      fun us head => outcome_block_flat (flat.alike head)
  · have behind : UpTo (StmtGoal.Kept P) rest.length :=
      before.behind (length_le_of_skipNewlines found)
    have opened : P (fun us => Reader.blockBody us.tail) (t :: rest) :=
      law.step (within _ (by rw [mark]; rfl)) (behind.here .blockBody) fun us => rfl
    exact law.lines_cons newline found opened fun us vs next => outcome_block next mark

omit blames in
theorem blockBody_kept (before : Before StmtGoal.rank (StmtGoal.Kept P) .blockBody ts) :
    P Reader.blockBody ts := by
  have newline : kinds (.layout .newline) = true := within _ rfl
  cases found : Grammar.skipNewlines ts with
  | nil =>
    exact law.lines_nil newline found (law.done [] []) fun us next => outcome_blockBody_nil next
  | cons t rest =>
    have le := length_le_of_skipNewlines found
    by_cases mark : t.kind = .layout .dedent
    · have closed : P (fun us => .ok ([], us.tail) : Reader (List Stmt)) (t :: rest) :=
        law.step (within _ (by rw [mark]; rfl)) (law.done [] rest) fun us => rfl
      exact law.lines_cons newline found closed fun us vs next => outcome_blockBody_close next mark
    · exact law.lines_cons newline found
        (law.andThen (before.lower .statement (by decide) le) fun s us read =>
          law.map (before.shorter .blockBody (Nat.lt_of_lt_of_le (outcome_rest_lt read) le))
            (s :: ·))
        fun us vs next => outcome_blockBody next mark

include looksAhead in
theorem clauses_kept (before : Before StmtGoal.rank (StmtGoal.Kept P) .clauses ts) :
    P Reader.clauses ts := by
  rcases lacks_or_cons (.keyword .sinonSi) ts with other | ⟨t, rest, rfl, word⟩
  · exact law.stop fun us head => outcome_clauses_end (other.alike head)
  · exact law.step (within _ (by rw [word]; rfl))
      (law.andThen (law.lowest within blames looksAhead rest) fun condition us test =>
        law.skip (within (.keyword .alors) rfl) us
          (law.andThen (law.colon within blames _) fun _ vs mark =>
            have body := (before.rest.after (outcome_rest_lt test)).colon mark
            law.andThen (body.here .block) fun ss ws read =>
              have more := body.after (outcome_rest_lt read)
              law.map (more.here .clauses) ((condition, ss) :: ·)))
      fun us => outcome_clauses word us

theorem otherwise_kept (before : Before StmtGoal.rank (StmtGoal.Kept P) .otherwise ts) :
    P Reader.otherwise ts := by
  rcases lacks_or_cons (.keyword .sinon) ts with other | ⟨t, rest, rfl, word⟩
  · exact law.stop fun us head => outcome_otherwise_end (other.alike head)
  · exact law.step (within _ (by rw [word]; rfl))
      (law.andThen (law.colon within blames rest) fun _ us mark =>
        law.map ((before.rest.after (outcome_rest_lt mark)).here .block) some)
      fun us => outcome_otherwise word us

omit blames in
theorem statements_kept (before : Before StmtGoal.rank (StmtGoal.Kept P) .statements ts) :
    P Reader.statements ts := by
  have newline : kinds (.layout .newline) = true := within _ rfl
  cases found : Grammar.skipNewlines ts with
  | nil =>
    exact law.lines_nil newline found (law.done [] []) fun us next => outcome_statements_nil next
  | cons t rest =>
    have le := length_le_of_skipNewlines found
    by_cases word : t.kind = .keyword .meow
    · exact law.lines_cons newline found (law.done [] (t :: rest)) fun us vs next =>
        outcome_statements_close next word
    · exact law.lines_cons newline found
        (law.andThen (before.lower .statement (by decide) le) fun s us read =>
          law.map (before.shorter .statements (Nat.lt_of_lt_of_le (outcome_rest_lt read) le))
            (s :: ·))
        fun us vs next => outcome_statements next word

include looksAhead

theorem statements (goal : StmtGoal) (ts : List Token) : P goal.reader ts := by
  change goal.Kept P ts
  refine holds_of_before StmtGoal.rank (fun goal ts before => ?_) goal ts
  cases goal with
  | statement => exact law.statement_kept within blames looksAhead before
  | block => exact law.block_kept within blames before
  | blockBody => exact law.blockBody_kept within before
  | clauses => exact law.clauses_kept within blames looksAhead before
  | otherwise => exact law.otherwise_kept within blames before
  | statements => exact law.statements_kept within before

end Statements

end Law

end Miaou.Grammar
