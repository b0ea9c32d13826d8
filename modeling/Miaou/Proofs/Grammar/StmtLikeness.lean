import Miaou.Proofs.Grammar.Likeness

/-!
Like tokens are read as like statements and like scripts.
-/

namespace Miaou.Grammar.Likeness

variable {α : Type} {L : Likeness}

/-! Statements -/

theorem skip (kind : Kind) {ts ts' : List Token} (same : L.Tokens ts ts') :
    L.Tokens (skip kind ts) (Grammar.skip kind ts') := by
  cases same with
  | nil => exact .nil
  | cons token more point =>
    rw [Grammar.skip, Grammar.skip, L.kind token]
    split
    · exact more
    · exact .cons token more point

theorem skipNewlines {ts ts' : List Token} (same : L.Tokens ts ts') :
    L.Tokens (skipNewlines ts) (Grammar.skipNewlines ts') := by
  induction same with
  | nil => exact .nil
  | @cons t t' rest rest' token more point ih =>
    rw [Grammar.skipNewlines, Grammar.skipNewlines, List.dropWhile_cons, List.dropWhile_cons,
      L.kind token]
    split
    · exact ih
    · exact .cons token more point

theorem skipNewlines_nil {ts ts' : List Token} (same : L.Tokens ts ts')
    (h : Grammar.skipNewlines ts = []) : Grammar.skipNewlines ts' = [] := by
  have rest := skipNewlines same
  rw [h] at rest
  generalize Grammar.skipNewlines ts' = us at rest ⊢
  cases rest
  rfl

theorem skipNewlines_cons {ts ts' rest : List Token} {t : Token} (same : L.Tokens ts ts')
    (h : Grammar.skipNewlines ts = t :: rest) :
    ∃ t' rest', Grammar.skipNewlines ts' = t' :: rest' ∧ L.token t t' ∧ L.Tokens rest rest' ∧
      L.Tokens (t :: rest) (t' :: rest') := by
  have rest := skipNewlines same
  rw [h] at rest
  generalize Grammar.skipNewlines ts' = us at rest ⊢
  cases rest with
  | cons token more point => exact ⟨_, _, rfl, token, more, .cons token more point⟩

theorem endsLine {ts ts' : List Token} (same : L.Tokens ts ts') :
    endsLine ts' = Grammar.endsLine ts := by
  cases same with
  | nil => rfl
  | cons token _ => rw [Grammar.endsLine, Grammar.endsLine, L.kind token]

theorem lineOfExpressions (ts : List Token) {ts' : List Token} (same : L.Tokens ts ts') :
    L.Reads (List.Forall₂ L.expr) (outcome (lineOfExpressions ts))
      (outcome (Grammar.lineOfExpressions ts')) := by
  induction ts using lineOfExpressions.induct generalizing ts' with
  | case1 ts ends =>
    rw [outcome_line_end ends, outcome_line_end ((endsLine same).trans ends)]
    exact .ok .nil same
  | case2 ts goesOn ih =>
    rw [Bool.not_eq_true] at goesOn
    rw [outcome_line goesOn, outcome_line ((endsLine same).trans goesOn)]
    exact (expression _ same).bind fun _ us lt _ us' like rest =>
      (ih us lt rest).bind fun _ _ _ _ _ items rest' => .ok (.cons like items) rest'

theorem parameters (ts : List Token) {ts' : List Token} (same : L.Tokens ts ts') :
    L.Reads Eq (outcome (parameters ts)) (outcome (Grammar.parameters ts')) := by
  induction ts using parameters.induct generalizing ts' with
  | case1 =>
    cases same
    exact .error _ .nil
  | case2 t rest close =>
    rcases same with _ | ⟨token, more⟩
    rw [outcome_parameters_none close, outcome_parameters_none ((L.kind token).trans close)]
    exact .ok rfl more
  | case3 t _ name =>
    rcases same with _ | ⟨token, _ | _⟩
    rw [outcome_parameters_open name (by simp),
      outcome_parameters_open ((L.kind token).trans name) (by simp)]
    exact .error _ .nil
  | case4 t _ name u rest comma ih =>
    rcases same with _ | ⟨token, _ | ⟨mark, more⟩⟩
    rw [outcome_parameters name comma, outcome_parameters ((L.kind token).trans name)
      ((L.kind mark).trans comma), L.name token name]
    exact (ih more).bind fun names us _ names' us' like rest => .ok (congrArg _ like) rest
  | case5 t _ name u rest _ close =>
    rcases same with _ | ⟨token, _ | ⟨mark, more⟩⟩
    rw [outcome_parameters_last name close, outcome_parameters_last ((L.kind token).trans name)
      ((L.kind mark).trans close), L.name token name]
    exact .ok rfl more
  | case6 t _ name u rest comma close =>
    rcases same with _ | ⟨token, more⟩
    have other :
        ∀ v ∈ (u :: rest).head?, v.kind ≠ .symbol .comma ∧ v.kind ≠ .symbol .rightParen := by
      rintro v ⟨⟩
      exact ⟨comma, close⟩
    rw [outcome_parameters_open name other, outcome_parameters_open ((L.kind token).trans name)
      (@head L (fun kind => kind ≠ .symbol .comma ∧ kind ≠ .symbol .rightParen) _ _ more other)]
    exact .error _ more
  | case7 t rest close name =>
    have other : ∀ u ∈ (t :: rest).head?, u.kind ≠ .symbol .rightParen ∧ u.kind ≠ .identifier := by
      rintro u ⟨⟩
      exact ⟨close, name⟩
    rw [outcome_parameters_unnamed other, outcome_parameters_unnamed
      (@head L (fun kind => kind ≠ .symbol .rightParen ∧ kind ≠ .identifier) _ _ same other)]
    exact .error _ same

theorem itemAssignment {t t' : Token} {e e' : Expr} (name : L.token t t') (target : L.expr e e')
    {ts ts' : List Token} (same : L.Tokens ts ts') :
    L.Reads L.stmt (outcome (itemAssignment t.position e ts))
      (outcome (Grammar.itemAssignment t'.position e' ts')) := by
  rcases lacks_or_cons (.symbol .assign) ts with noAssign | ⟨u, us, rfl, mark⟩
  · rw [outcome_itemAssignment_end _ _ noAssign,
      outcome_itemAssignment_end _ _ (lacks same noAssign)]
    exact .ok (L.named name target) same
  · rcases same with _ | ⟨token, more, point⟩
    have shape := L.isItem target
    by_cases item : e.isItem = true
    · rw [item] at shape
      cases e <;> cases item
      cases e' <;> cases shape
      rw [outcome_itemAssignment mark, outcome_itemAssignment ((L.kind token).trans mark)]
      exact (expression _ more).bind fun _ _ _ _ _ like rest =>
        .ok (L.assignIndex name target like) rest
    · have other {d : Expr} (h : d.isItem ≠ true) : ∀ p o i, d ≠ .item p o i := by
        rintro p o i rfl
        exact h rfl
      rw [outcome_itemAssignment_other mark _ (other item), outcome_itemAssignment_other
        ((L.kind token).trans mark) _ (other (by rw [shape]; exact item))]
      exact .error _ (.cons token more point)

theorem namedStatement {t t' : Token} (name : L.token t t') (word : t.kind = .identifier)
    {ts ts' : List Token} (same : L.Tokens ts ts') :
    L.Reads L.stmt (outcome (namedStatement t ts)) (outcome (Grammar.namedStatement t' ts')) := by
  have unpointed : t.kind ≠ .symbol .dot := by simp [word]
  rcases lacks_or_cons (.symbol .assign) ts with noAssign | ⟨u, us, rfl, mark⟩
  · rcases lacks_or_cons (.symbol .leftBracket) ts with noItem | ⟨u, us, rfl, mark⟩
    · rw [outcome_named _ noAssign noItem, outcome_named _ (lacks same noAssign)
        (lacks same noItem)]
      exact (expression _ (.cons name same (absurd · unpointed))).bind fun _ _ _ _ _ like rest =>
        .ok (L.named name like) rest
    · rcases same with _ | ⟨token, more, point⟩
      rw [outcome_assignItem _ mark, outcome_assignItem _ ((L.kind token).trans mark)]
      exact (expression _ (.cons name (.cons token more point) (absurd · unpointed))).bind
        fun _ _ _ _ _ target rest => itemAssignment name target rest
  · rcases same with _ | ⟨token, more⟩
    rw [outcome_assign _ mark, outcome_assign _ ((L.kind token).trans mark), L.name name word]
    exact (expression _ more).bind fun _ _ _ _ _ like rest => .ok (L.assign name _ like) rest

theorem returned {ts ts' : List Token} (same : L.Tokens ts ts') :
    L.Reads (Option.Rel L.expr) (outcome (returned ts)) (outcome (Grammar.returned ts')) := by
  cases ends : Grammar.endsLine ts with
  | true =>
    rw [outcome_returned_none ends, outcome_returned_none ((endsLine same).trans ends)]
    exact .ok .none same
  | false =>
    rw [outcome_returned ends, outcome_returned ((endsLine same).trans ends)]
    exact (expression _ same).bind fun _ _ _ _ _ like rest => .ok (.some like) rest

def found (L : Likeness) : (goal : StmtGoal) → goal.Value → goal.Value → Prop
  | .statement => L.stmt
  | .block | .blockBody | .statements => List.Forall₂ L.stmt
  | .clauses => List.Forall₂ L.clause
  | .otherwise => Option.Rel (List.Forall₂ L.stmt)

def StmtAlike (L : Likeness) (goal : StmtGoal) (ts : List Token) : Prop :=
  ∀ ⦃ts'⦄, L.Tokens ts ts' → L.Reads (L.found goal) (goal.reader ts) (goal.reader ts')

section Forms

variable {t : Token} {rest ts' : List Token} (inner : UpTo L.StmtAlike rest.length)
  (same : L.Tokens (t :: rest) ts')

include inner same

theorem branch_alike (word : t.kind = .keyword .si) :
    L.Reads L.stmt (outcome (statement (t :: rest))) (outcome (statement ts')) := by
  rcases same with _ | ⟨token, more⟩
  rw [outcome_branch word, outcome_branch ((L.kind token).trans word)]
  refine (expression _ more).bind fun _ us lt _ _ condition rest₁ => ?_
  refine (expect _ _ (skip _ rest₁)).bind fun _ _ lt₁ _ _ _ rest₂ => ?_
  have body := ((inner.after lt).mono (skip_length_le _ us)).after lt₁
  refine (body.here .block rest₂).bind fun _ _ lt₂ _ _ ss rest₃ => ?_
  refine ((body.after lt₂).here .clauses rest₃).bind fun _ _ lt₃ _ _ cs rest₄ => ?_
  have last := (body.after lt₂).mono (Nat.le_of_lt_succ lt₃)
  exact (last.here .otherwise rest₄).bind fun _ _ _ _ _ other rest₅ =>
    .ok (L.branch token condition ss cs other) rest₅

theorem whileLoop_alike (word : t.kind = .keyword .tantQue) :
    L.Reads L.stmt (outcome (statement (t :: rest))) (outcome (statement ts')) := by
  rcases same with _ | ⟨token, more⟩
  rw [outcome_while word, outcome_while ((L.kind token).trans word)]
  refine (expression _ more).bind fun _ _ lt _ _ condition rest₁ => ?_
  refine (expect _ _ rest₁).bind fun _ _ lt₁ _ _ _ rest₂ => ?_
  exact (((inner.after lt).after lt₁).here .block rest₂).bind fun _ _ _ _ _ ss rest₃ =>
    .ok (L.whileLoop token condition ss) rest₃

theorem repeatLoop_alike (word : t.kind = .keyword .repeter) :
    L.Reads L.stmt (outcome (statement (t :: rest))) (outcome (statement ts')) := by
  rcases same with _ | ⟨token, more⟩
  rw [outcome_repeat word, outcome_repeat ((L.kind token).trans word)]
  refine (expression _ more).bind fun _ us lt _ _ count rest₁ => ?_
  refine (expect _ _ (skip _ rest₁)).bind fun _ _ lt₁ _ _ _ rest₂ => ?_
  have body := ((inner.after lt).mono (skip_length_le _ us)).after lt₁
  exact (body.here .block rest₂).bind fun _ _ _ _ _ ss rest₃ =>
    .ok (L.repeatLoop token count ss) rest₃

theorem forEach_alike (word : t.kind = .keyword .pourChaque) :
    L.Reads L.stmt (outcome (statement (t :: rest))) (outcome (statement ts')) := by
  rcases same with _ | ⟨token, more⟩
  rw [outcome_forEach word, outcome_forEach ((L.kind token).trans word)]
  refine (expect _ _ more).bind fun name _ lt name' _ called rest₁ => ?_
  refine (expect _ _ rest₁).bind fun _ _ lt₁ _ _ _ rest₂ => ?_
  refine (expression _ rest₂).bind fun _ _ lt₂ _ _ items rest₃ => ?_
  refine (expect _ _ rest₃).bind fun _ _ lt₃ _ _ _ rest₄ => ?_
  have body := ((inner.after lt).after lt₁).after lt₂ |>.after lt₃
  refine (body.here .block rest₄).bind fun _ _ _ _ _ ss rest₅ => ?_
  rw [L.name called.1 called.2]
  exact .ok (L.forEach token _ items ss) rest₅

theorem define_alike (word : t.kind = .keyword .fonction) :
    L.Reads L.stmt (outcome (statement (t :: rest))) (outcome (statement ts')) := by
  rcases same with _ | ⟨token, more⟩
  rw [outcome_define word, outcome_define ((L.kind token).trans word)]
  refine (expect _ _ more).bind fun name _ lt name' _ called rest₁ => ?_
  refine (expect _ _ rest₁).bind fun _ _ lt₁ _ _ _ rest₂ => ?_
  refine (parameters _ rest₂).bind fun names _ lt₂ _ _ given rest₃ => ?_
  refine (expect _ _ rest₃).bind fun _ _ lt₃ _ _ _ rest₄ => ?_
  have body := ((inner.after lt).after lt₁).after lt₂ |>.after lt₃
  refine (body.here .block rest₄).bind fun _ _ _ _ _ ss rest₅ => ?_
  rw [L.name called.1 called.2, ← given]
  exact .ok (L.define token _ _ ss) rest₅

theorem attempt_alike (word : t.kind = .keyword .essayer) :
    L.Reads L.stmt (outcome (statement (t :: rest))) (outcome (statement ts')) := by
  rcases same with _ | ⟨token, more⟩
  rw [outcome_attempt word, outcome_attempt ((L.kind token).trans word)]
  refine (expect _ _ more).bind fun _ _ lt _ _ _ rest₁ => ?_
  have body := inner.after lt
  refine (body.here .block rest₁).bind fun _ _ lt₁ _ _ ss rest₂ => ?_
  refine (expect _ _ rest₂).bind fun _ ws lt₂ _ _ _ rest₃ => ?_
  refine (expect _ _ (skip _ rest₃)).bind fun _ _ lt₃ _ _ _ rest₄ => ?_
  have handler := (((body.after lt₁).after lt₂).mono (skip_length_le _ ws)).after lt₃
  exact (handler.here .block rest₄).bind fun _ _ _ _ _ hs rest₅ =>
    .ok (L.attempt token ss hs) rest₅

end Forms

section Goals

variable {ts : List Token}

theorem statement_alike (before : Before StmtGoal.rank L.StmtAlike .statement ts) :
    L.StmtAlike .statement ts := by
  intro ts' same
  change L.Reads L.stmt (outcome (statement ts)) (outcome (statement ts'))
  cases ts with
  | nil =>
    rcases same with _ | _
    rw [outcome_statement_nil]
    exact .error _ .nil
  | cons t us =>
  cases form t with
  | branch word => exact branch_alike before.rest same word
  | whileLoop word => exact whileLoop_alike before.rest same word
  | repeatLoop word => exact repeatLoop_alike before.rest same word
  | forEach word => exact forEach_alike before.rest same word
  | define word => exact define_alike before.rest same word
  | attempt word => exact attempt_alike before.rest same word
  | print word =>
    rcases same with _ | ⟨token, more⟩
    rw [outcome_print word, outcome_print ((L.kind token).trans word)]
    exact (lineOfExpressions _ more).bind fun _ _ _ _ _ items rest =>
      .ok (L.named token (L.function token _ items)) rest
  | giveBack word =>
    rcases same with _ | ⟨token, more⟩
    rw [outcome_giveBack word, outcome_giveBack ((L.kind token).trans word)]
    exact (returned more).bind fun _ _ _ _ _ value rest => .ok (L.giveBack token value) rest
  | importModule word =>
    rcases same with _ | ⟨token, more⟩
    rw [outcome_import word, outcome_import ((L.kind token).trans word)]
    refine (expect _ _ more).bind fun name _ _ name' _ called rest => ?_
    dsimp only
    rw [L.name called.1 called.2]
    exact .ok (L.importModule token _) rest
  | named kind =>
    rcases same with _ | ⟨token, more⟩
    rw [outcome_namedStatement kind, outcome_namedStatement ((L.kind token).trans kind)]
    exact namedStatement token kind more
  | misplaced found =>
    rcases same with _ | ⟨token, more, point⟩
    rw [outcome_misplaced found, outcome_misplaced (by rw [L.kind token]; exact found)]
    exact .error _ (.cons token more point)
  | expression plain allowed =>
    have line := expression .lowest same
    rcases same with _ | ⟨token, more⟩
    rw [outcome_plain plain allowed, outcome_plain (by rw [L.kind token]; exact plain)
      (by rw [L.kind token]; exact allowed)]
    exact line.bind fun _ _ _ _ _ like rest => .ok (L.bare like) rest

theorem block_alike (before : Before StmtGoal.rank L.StmtAlike .block ts) :
    L.StmtAlike .block ts := by
  intro ts' same
  change L.Reads (List.Forall₂ L.stmt) (outcome (block ts)) (outcome (block ts'))
  rcases lacks_or_cons (.layout .indent) (Grammar.skipNewlines ts) with flat | ⟨t, us, found, mark⟩
  · rw [outcome_block_flat flat, outcome_block_flat (lacks (skipNewlines same) flat)]
    exact .error _ (skipNewlines same)
  · obtain ⟨t', us', found', token, more, -⟩ := skipNewlines_cons same found
    rw [outcome_block found mark, outcome_block found' ((L.kind token).trans mark)]
    exact before.shorter .blockBody (length_le_of_skipNewlines found) more

theorem blockBody_alike (before : Before StmtGoal.rank L.StmtAlike .blockBody ts) :
    L.StmtAlike .blockBody ts := by
  intro ts' same
  change L.Reads (List.Forall₂ L.stmt) (outcome (blockBody ts)) (outcome (blockBody ts'))
  cases found : Grammar.skipNewlines ts with
  | nil =>
    rw [outcome_blockBody_nil found, outcome_blockBody_nil (skipNewlines_nil same found)]
    exact .ok .nil .nil
  | cons t us =>
    have le := length_le_of_skipNewlines found
    obtain ⟨t', us', found', token, more, all⟩ := skipNewlines_cons same found
    by_cases mark : t.kind = .layout .dedent
    · rw [outcome_blockBody_close found mark,
        outcome_blockBody_close found' ((L.kind token).trans mark)]
      exact .ok .nil more
    · rw [outcome_blockBody found mark,
        outcome_blockBody found' (by rw [L.kind token]; exact mark)]
      exact (before.lower .statement (by decide) le all).bind fun _ _ lt _ _ like rest =>
        (before.shorter .blockBody (Nat.lt_of_lt_of_le lt le) rest).bind
          fun _ _ _ _ _ ss rest' => .ok (.cons like ss) rest'

theorem clauses_alike (before : Before StmtGoal.rank L.StmtAlike .clauses ts) :
    L.StmtAlike .clauses ts := by
  intro ts' same
  change L.Reads (List.Forall₂ L.clause) (outcome (clauses ts)) (outcome (clauses ts'))
  rcases lacks_or_cons (.keyword .sinonSi) ts with other | ⟨t, us, rfl, word⟩
  · rw [outcome_clauses_end other, outcome_clauses_end (lacks same other)]
    exact .ok .nil same
  · rcases same with _ | ⟨token, more⟩
    rw [outcome_clauses word, outcome_clauses ((L.kind token).trans word)]
    refine (expression _ more).bind fun _ vs lt _ _ condition rest₁ => ?_
    refine (expect _ _ (skip _ rest₁)).bind fun _ _ lt₁ _ _ _ rest₂ => ?_
    have body := ((before.rest.after lt).mono (skip_length_le _ vs)).after lt₁
    refine (body.here .block rest₂).bind fun _ _ lt₂ _ _ ss rest₃ => ?_
    exact ((body.after lt₂).here .clauses rest₃).bind fun _ _ _ _ _ cs rest₄ =>
      .ok (.cons ⟨condition, ss⟩ cs) rest₄

theorem otherwise_alike (before : Before StmtGoal.rank L.StmtAlike .otherwise ts) :
    L.StmtAlike .otherwise ts := by
  intro ts' same
  change L.Reads (Option.Rel (List.Forall₂ L.stmt)) (outcome (otherwise ts))
    (outcome (otherwise ts'))
  rcases lacks_or_cons (.keyword .sinon) ts with other | ⟨t, us, rfl, word⟩
  · rw [outcome_otherwise_end other, outcome_otherwise_end (lacks same other)]
    exact .ok .none same
  · rcases same with _ | ⟨token, more⟩
    rw [outcome_otherwise word, outcome_otherwise ((L.kind token).trans word)]
    exact (expect _ _ more).bind fun _ _ lt _ _ _ rest =>
      ((before.rest.after lt).here .block rest).bind fun _ _ _ _ _ ss rest' =>
        .ok (.some ss) rest'

theorem statements_alike (before : Before StmtGoal.rank L.StmtAlike .statements ts) :
    L.StmtAlike .statements ts := by
  intro ts' same
  change L.Reads (List.Forall₂ L.stmt) (outcome (statements ts)) (outcome (statements ts'))
  cases found : Grammar.skipNewlines ts with
  | nil =>
    rw [outcome_statements_nil found, outcome_statements_nil (skipNewlines_nil same found)]
    exact .ok .nil .nil
  | cons t us =>
    have le := length_le_of_skipNewlines found
    obtain ⟨t', us', found', token, -, all⟩ := skipNewlines_cons same found
    by_cases word : t.kind = .keyword .meow
    · rw [outcome_statements_close found word,
        outcome_statements_close found' ((L.kind token).trans word)]
      exact .ok .nil all
    · rw [outcome_statements found word,
        outcome_statements found' (by rw [L.kind token]; exact word)]
      exact (before.lower .statement (by decide) le all).bind fun _ _ lt _ _ like rest =>
        (before.shorter .statements (Nat.lt_of_lt_of_le lt le) rest).bind
          fun _ _ _ _ _ ss rest' => .ok (.cons like ss) rest'

end Goals

theorem stmtAlike (L : Likeness) (goal : StmtGoal) (ts : List Token) : L.StmtAlike goal ts := by
  refine holds_of_before StmtGoal.rank (fun goal ts before => ?_) goal ts
  cases goal with
  | statement => exact statement_alike before
  | block => exact block_alike before
  | blockBody => exact blockBody_alike before
  | clauses => exact clauses_alike before
  | otherwise => exact otherwise_alike before
  | statements => exact statements_alike before

/-! Scripts -/

inductive Results (like : α → α → Prop) : (result result' : Except Failure α) → Prop where
  | ok {a a' : α} (value : like a a') : Results like (.ok a) (.ok a')
  | error (cause : Cause) {us us' : List Token} (rest : L.Tokens us us') :
      Results like (.error ⟨cause, us⟩) (.error ⟨cause, us'⟩)

theorem closing {ts ts' : List Token} (same : L.Tokens ts ts') :
    L.Results Eq (closing ts) (Grammar.closing ts') := by
  cases same with
  | nil => exact .error _ .nil
  | @cons t t' rest rest' token more point =>
    have ended : Grammar.skipNewlines rest' = [] ↔ Grammar.skipNewlines rest = [] := by
      have behind := skipNewlines more
      generalize Grammar.skipNewlines rest = us at behind
      generalize Grammar.skipNewlines rest' = us' at behind
      cases behind <;> simp
    rw [Grammar.closing, Grammar.closing, L.kind token]
    simp only [ended]
    split
    · split
      · exact .ok rfl
      · exact .error _ (.cons token more point)
    · exact .error _ (.cons token more point)

theorem reads_script {ts ts' : List Token} (same : L.Tokens ts ts') :
    L.Results L.program (Grammar.script ts) (Grammar.script ts') := by
  by_cases empty : ts = []
  · subst empty
    cases same
    exact .error _ .nil
  have empty' : ts' ≠ [] := by
    rintro rfl
    cases same
    exact empty rfl
  rcases lacks_or_cons (.keyword .miaou) (Grammar.skipNewlines ts) with
    opened | ⟨t, rest, found, word⟩
  · rw [script_closed empty opened, script_closed empty' (lacks (skipNewlines same) opened)]
    exact .error _ (skipNewlines same)
  · obtain ⟨t', rest', found', token, more, -⟩ := skipNewlines_cons same found
    rw [script_open found word, script_open found' ((L.kind token).trans word)]
    have read := L.stmtAlike .statements rest more
    change L.Reads _ (outcome (Grammar.statements rest))
      (outcome (Grammar.statements rest')) at read
    generalize outcome (Grammar.statements rest) = found at read
    generalize outcome (Grammar.statements rest') = found' at read
    cases read with
    | error cause left => exact .error cause left
    | @ok _ _ us us' body left =>
      change L.Results _ (Grammar.closing us >>= _) (Grammar.closing us' >>= _)
      have ended := closing left
      generalize Grammar.closing us = result at ended
      generalize Grammar.closing us' = result' at ended
      cases ended with
      | ok _ => exact .ok (L.script token body)
      | error cause behind => exact .error cause behind

theorem body {ts ts' : List Token} (same : L.Tokens ts ts') :
    L.Tokens (Program.body ts) (Program.body ts') := by
  induction same with
  | nil => exact .nil
  | @cons t t' rest rest' token more point ih =>
    rw [Program.body, Program.body, List.takeWhile_cons, List.takeWhile_cons, Program.isEof,
      Program.isEof, L.kind token]
    split
    · refine .cons token ih fun dot u first u' first' => ?_
      rw [List.head?_takeWhile, Option.mem_filter_iff] at first first'
      exact point dot u first.1 u' first'.1
    · exact .nil

theorem reads_ofTokens {ts ts' : List Token} (same : L.Tokens ts ts') :
    (∃ p p', Program.ofTokens ts = .ok p ∧ Program.ofTokens ts' = .ok p' ∧ L.program p p') ∨
      ∃ cause us us', L.Tokens us us' ∧
        Program.ofTokens ts = .error (Program.faultOf (Program.finish ts) ⟨cause, us⟩) ∧
        Program.ofTokens ts' = .error (Program.faultOf (Program.finish ts') ⟨cause, us'⟩) := by
  have read := reads_script (body same)
  rw [Program.ofTokens, Program.ofTokens]
  generalize Grammar.script (Program.body ts) = found at read
  generalize Grammar.script (Program.body ts') = found' at read
  cases read with
  | ok value => exact .inl ⟨_, _, rfl, rfl, value⟩
  | error cause rest => exact .inr ⟨cause, _, _, rest, rfl, rfl⟩

end Miaou.Grammar.Likeness
