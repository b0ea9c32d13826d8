import Miaou.Proofs.Grammar.Extent

/-!
The grammar of statements as a relation. `Composes part ts rest` says that the reader of the part
takes what `ts` has before `rest`. Whatever the readers of statements give back is composed by
these rules, so properties of what is read are proved by induction on compositions.
-/

namespace Miaou.Grammar

/-- What a reader of statements has read. -/
inductive Part where
  | statement (s : Stmt)
  | block (body : List Stmt)
  /-- The statements of a block up to the mark that closes it. -/
  | body (body : List Stmt)
  | clauses (clauses : List (Expr × List Stmt))
  | otherwise (last : Option (List Stmt))
  /-- The statements of a script up to its closing word. -/
  | script (body : List Stmt)

inductive Composes : Part → List Token → List Token → Prop where
  | print {t : Token} {given : List Expr} {ts us : List Token} (word : t.kind = .keyword .ecrire)
      (line : outcome (lineOfExpressions ts) = .ok (given, us)) :
      Composes (.statement (.expression t.position (.call t.position "ecrire" given))) (t :: ts) us
  | branch {t colon : Token} {condition : Expr} {body : List Stmt}
      {more : List (Expr × List Stmt)} {last : Option (List Stmt)} {ts us vs ws xs ys : List Token}
      (word : t.kind = .keyword .si) (test : outcome (expression .lowest ts) = .ok (condition, us))
      (mark : outcome (expectColon (skip (.keyword .alors) us)) = .ok (colon, vs))
      (inner : Composes (.block body) vs ws) (further : Composes (.clauses more) ws xs)
      (ending : Composes (.otherwise last) xs ys) :
      Composes (.statement (.branch t.position condition body more last)) (t :: ts) ys
  | whileLoop {t colon : Token} {condition : Expr} {body : List Stmt} {ts us vs ws : List Token}
      (word : t.kind = .keyword .tantQue)
      (test : outcome (expression .lowest ts) = .ok (condition, us))
      (mark : outcome (expectColon us) = .ok (colon, vs)) (inner : Composes (.block body) vs ws) :
      Composes (.statement (.whileLoop t.position condition body)) (t :: ts) ws
  | repeatLoop {t colon : Token} {count : Expr} {body : List Stmt} {ts us vs ws : List Token}
      (word : t.kind = .keyword .repeter)
      (times : outcome (expression .lowest ts) = .ok (count, us))
      (mark : outcome (expectColon (skip (.keyword .fois) us)) = .ok (colon, vs))
      (inner : Composes (.block body) vs ws) :
      Composes (.statement (.repeatLoop t.position count body)) (t :: ts) ws
  | forEach {t name dans colon : Token} {items : Expr} {body : List Stmt}
      {ts us vs ws xs ys : List Token} (word : t.kind = .keyword .pourChaque)
      (called : outcome (expectName .variableName ts) = .ok (name, us))
      (among : outcome (expect (.keyword .dans) (.missingElement .dans) us) = .ok (dans, vs))
      (whole : outcome (expression .lowest vs) = .ok (items, ws))
      (mark : outcome (expectColon ws) = .ok (colon, xs)) (inner : Composes (.block body) xs ys) :
      Composes (.statement (.forEach t.position name.lexeme items body)) (t :: ts) ys
  | define {t name paren colon : Token} {names : List String} {body : List Stmt}
      {ts us vs ws xs ys : List Token} (word : t.kind = .keyword .fonction)
      (called : outcome (expectName .functionName ts) = .ok (name, us))
      (opened : outcome (expect (.symbol .leftParen) (.missingDelimiter .leftParen) us) =
        .ok (paren, vs))
      (given : outcome (parameters vs) = .ok (names, ws))
      (mark : outcome (expectColon ws) = .ok (colon, xs)) (inner : Composes (.block body) xs ys) :
      Composes (.statement (.define t.position name.lexeme names body)) (t :: ts) ys
  | giveBack {t : Token} {value : Option Expr} {ts us : List Token}
      (word : t.kind = .keyword .retour) (line : outcome (returned ts) = .ok (value, us)) :
      Composes (.statement (.giveBack t.position value)) (t :: ts) us
  | attempt {t colon sauf colon' : Token} {body handler : List Stmt}
      {ts us vs ws xs ys : List Token} (word : t.kind = .keyword .essayer)
      (mark : outcome (expectColon ts) = .ok (colon, us)) (inner : Composes (.block body) us vs)
      (caught : outcome (expect (.keyword .sauf) (.missingElement .sauf) vs) = .ok (sauf, ws))
      (mark' : outcome (expectColon (skip (.keyword .erreur) ws)) = .ok (colon', xs))
      (inner' : Composes (.block handler) xs ys) :
      Composes (.statement (.attempt t.position body handler)) (t :: ts) ys
  | importModule {t name : Token} {ts us : List Token} (word : t.kind = .keyword .importer)
      (called : outcome (expectName .moduleName ts) = .ok (name, us)) :
      Composes (.statement (.importModule t.position name.lexeme)) (t :: ts) us
  | assign {name t : Token} {value : Expr} {ts us : List Token} (kind : name.kind = .identifier)
      (mark : t.kind = .symbol .assign)
      (line : outcome (expression .lowest ts) = .ok (value, us)) :
      Composes (.statement (.assign name.position name.lexeme value)) (name :: t :: ts) us
  | assignItem {name t u : Token} {place : Position} {object index value : Expr}
      {ts us vs : List Token} (kind : name.kind = .identifier)
      (mark : t.kind = .symbol .leftBracket)
      (target : outcome (expression .postfixes (name :: t :: ts)) =
        .ok (.item place object index, u :: us))
      (mark' : u.kind = .symbol .assign)
      (line : outcome (expression .lowest us) = .ok (value, vs)) :
      Composes (.statement (.assignIndex name.position object index value)) (name :: t :: ts) vs
  | item {name t : Token} {e : Expr} {ts us : List Token} (kind : name.kind = .identifier)
      (mark : t.kind = .symbol .leftBracket)
      (line : outcome (expression .postfixes (name :: t :: ts)) = .ok (e, us))
      (noAssign : Lacks (.symbol .assign) us) :
      Composes (.statement (.expression name.position e)) (name :: t :: ts) us
  | named {name : Token} {e : Expr} {ts us : List Token} (kind : name.kind = .identifier)
      (noAssign : Lacks (.symbol .assign) ts) (noItem : Lacks (.symbol .leftBracket) ts)
      (line : outcome (expression .lowest (name :: ts)) = .ok (e, us)) :
      Composes (.statement (.expression name.position e)) (name :: ts) us
  | expression {t : Token} {e : Expr} {ts us : List Token} (plain : leads t.kind = false)
      (allowed : misplaced? t.kind = none)
      (line : outcome (expression .lowest (t :: ts)) = .ok (e, us)) :
      Composes (.statement (.expression e.position e)) (t :: ts) us
  | block {t : Token} {body : List Stmt} {ts us rest : List Token}
      (found : skipNewlines ts = t :: us) (mark : t.kind = .layout .indent)
      (inner : Composes (.body body) us rest) : Composes (.block body) ts rest
  | bodyEnd {ts : List Token} (found : skipNewlines ts = []) : Composes (.body []) ts []
  | bodyClose {t : Token} {ts rest : List Token} (found : skipNewlines ts = t :: rest)
      (mark : t.kind = .layout .dedent) : Composes (.body []) ts rest
  | bodyMore {t : Token} {s : Stmt} {ss : List Stmt} {ts us vs rest : List Token}
      (found : skipNewlines ts = t :: us) (other : t.kind ≠ .layout .dedent)
      (first : Composes (.statement s) (t :: us) vs) (more : Composes (.body ss) vs rest) :
      Composes (.body (s :: ss)) ts rest
  | clause {t colon : Token} {condition : Expr} {body : List Stmt}
      {others : List (Expr × List Stmt)} {ts us vs ws xs : List Token}
      (word : t.kind = .keyword .sinonSi)
      (test : outcome (expression .lowest ts) = .ok (condition, us))
      (mark : outcome (expectColon (skip (.keyword .alors) us)) = .ok (colon, vs))
      (inner : Composes (.block body) vs ws) (further : Composes (.clauses others) ws xs) :
      Composes (.clauses ((condition, body) :: others)) (t :: ts) xs
  | clausesEnd {ts : List Token} (other : Lacks (.keyword .sinonSi) ts) :
      Composes (.clauses []) ts ts
  | otherwise {t colon : Token} {body : List Stmt} {ts us vs : List Token}
      (word : t.kind = .keyword .sinon) (mark : outcome (expectColon ts) = .ok (colon, us))
      (inner : Composes (.block body) us vs) : Composes (.otherwise (some body)) (t :: ts) vs
  | otherwiseEnd {ts : List Token} (other : Lacks (.keyword .sinon) ts) :
      Composes (.otherwise none) ts ts
  | scriptEnd {ts : List Token} (found : skipNewlines ts = []) : Composes (.script []) ts []
  | scriptClose {t : Token} {ts rest : List Token} (found : skipNewlines ts = t :: rest)
      (word : t.kind = .keyword .meow) : Composes (.script []) ts (t :: rest)
  | scriptMore {t : Token} {s : Stmt} {ss : List Stmt} {ts us vs rest : List Token}
      (found : skipNewlines ts = t :: us) (other : t.kind ≠ .keyword .meow)
      (first : Composes (.statement s) (t :: us) vs) (more : Composes (.script ss) vs rest) :
      Composes (.script (s :: ss)) ts rest

/-! What is read is composed -/

theorem composes_of_itemAssignment {name t : Token} {target : Expr} {ts us vs : List Token}
    {s : Stmt} (kind : name.kind = .identifier) (mark : t.kind = .symbol .leftBracket)
    (inner : outcome (expression .postfixes (name :: t :: ts)) = .ok (target, us))
    (read : outcome (itemAssignment name.position target us) = .ok (s, vs)) :
    Composes (.statement s) (name :: t :: ts) vs := by
  rcases lacks_or_cons (.symbol .assign) us with lacks | ⟨u, us, rfl, mark'⟩
  · rw [outcome_itemAssignment_end _ target lacks] at read
    cases read
    exact .item kind mark inner lacks
  · by_cases item : ∃ place object index, target = .item place object index
    · obtain ⟨place, object, index, rfl⟩ := item
      rw [outcome_itemAssignment mark'] at read
      obtain ⟨⟨value, ws⟩, line, same⟩ := bind_ok read
      cases same
      exact .assignItem kind mark inner mark' line
    · have other : ∀ place object index, target ≠ .item place object index :=
        fun place object index same => item ⟨place, object, index, same⟩
      rw [outcome_itemAssignment_other mark' _ other] at read
      cases read

theorem composes_of_namedStatement {name : Token} {ts us : List Token} {s : Stmt}
    (kind : name.kind = .identifier) (read : outcome (namedStatement name ts) = .ok (s, us)) :
    Composes (.statement s) (name :: ts) us := by
  rcases lacks_or_cons (.symbol .assign) ts with noAssign | ⟨t, ts, rfl, mark⟩
  · rcases lacks_or_cons (.symbol .leftBracket) ts with noItem | ⟨t, ts, rfl, mark⟩
    · rw [outcome_named name noAssign noItem] at read
      obtain ⟨⟨e, vs⟩, line, same⟩ := bind_ok read
      cases same
      exact .named kind noAssign noItem line
    · rw [outcome_assignItem name mark] at read
      obtain ⟨⟨target, vs⟩, inner, last⟩ := bind_ok read
      exact composes_of_itemAssignment kind mark inner last
  · rw [outcome_assign name mark] at read
    obtain ⟨⟨value, vs⟩, line, same⟩ := bind_ok read
    cases same
    exact .assign kind mark line

namespace StmtGoal

def part : (goal : StmtGoal) → goal.Value → Part
  | .statement, s => .statement s
  | .block, body => .block body
  | .blockBody, body => .body body
  | .clauses, cs => .clauses cs
  | .otherwise, last => .otherwise last
  | .statements, body => .script body

def Composed (goal : StmtGoal) (ts : List Token) : Prop :=
  ∀ ⦃a : goal.Value⦄ ⦃rest : List Token⦄, goal.reader ts = .ok (a, rest) →
    Composes (goal.part a) ts rest

section Forms

variable {t : Token} {ts rest : List Token} {s : Stmt} (inner : UpTo Composed ts.length)
  (read : outcome (Grammar.statement (t :: ts)) = .ok (s, rest))

include inner read

theorem composed_branch (word : t.kind = .keyword .si) :
    Composes (.statement s) (t :: ts) rest := by
  rw [outcome_branch word] at read
  obtain ⟨⟨condition, us⟩, test, read⟩ := bind_ok read
  obtain ⟨⟨colon, vs⟩, mark, read⟩ := bind_ok read
  obtain ⟨⟨ss, ws⟩, body, read⟩ := bind_ok read
  obtain ⟨⟨cs, xs⟩, further, read⟩ := bind_ok read
  obtain ⟨⟨other, ys⟩, ending, same⟩ := bind_ok read
  cases same
  have behind := (inner.after (outcome_rest_lt test)).colon mark
  have more := behind.after (outcome_rest_lt body)
  have last := more.mono (Nat.le_of_lt_succ (outcome_rest_lt further))
  exact .branch word test mark (behind.here .block body) (more.here .clauses further)
    (last.here .otherwise ending)

theorem composed_while (word : t.kind = .keyword .tantQue) :
    Composes (.statement s) (t :: ts) rest := by
  rw [outcome_while word] at read
  obtain ⟨⟨condition, us⟩, test, read⟩ := bind_ok read
  obtain ⟨⟨colon, vs⟩, mark, read⟩ := bind_ok read
  obtain ⟨⟨ss, ws⟩, body, same⟩ := bind_ok read
  cases same
  have behind := (inner.after (outcome_rest_lt test)).after (outcome_rest_lt mark)
  exact .whileLoop word test mark (behind.here .block body)

theorem composed_repeat (word : t.kind = .keyword .repeter) :
    Composes (.statement s) (t :: ts) rest := by
  rw [outcome_repeat word] at read
  obtain ⟨⟨count, us⟩, times, read⟩ := bind_ok read
  obtain ⟨⟨colon, vs⟩, mark, read⟩ := bind_ok read
  obtain ⟨⟨ss, ws⟩, body, same⟩ := bind_ok read
  cases same
  have behind := (inner.after (outcome_rest_lt times)).colon mark
  exact .repeatLoop word times mark (behind.here .block body)

theorem composed_forEach (word : t.kind = .keyword .pourChaque) :
    Composes (.statement s) (t :: ts) rest := by
  rw [outcome_forEach word] at read
  obtain ⟨⟨name, us⟩, called, read⟩ := bind_ok read
  obtain ⟨⟨dans, vs⟩, among, read⟩ := bind_ok read
  obtain ⟨⟨items, ws⟩, whole, read⟩ := bind_ok read
  obtain ⟨⟨colon, xs⟩, mark, read⟩ := bind_ok read
  obtain ⟨⟨ss, ys⟩, body, same⟩ := bind_ok read
  cases same
  have named := (inner.after (outcome_rest_lt called)).after (outcome_rest_lt among)
  have behind := (named.after (outcome_rest_lt whole)).after (outcome_rest_lt mark)
  exact .forEach word called among whole mark (behind.here .block body)

theorem composed_define (word : t.kind = .keyword .fonction) :
    Composes (.statement s) (t :: ts) rest := by
  rw [outcome_define word] at read
  obtain ⟨⟨name, us⟩, called, read⟩ := bind_ok read
  obtain ⟨⟨paren, vs⟩, opened, read⟩ := bind_ok read
  obtain ⟨⟨names, ws⟩, given, read⟩ := bind_ok read
  obtain ⟨⟨colon, xs⟩, mark, read⟩ := bind_ok read
  obtain ⟨⟨ss, ys⟩, body, same⟩ := bind_ok read
  cases same
  have named := (inner.after (outcome_rest_lt called)).after (outcome_rest_lt opened)
  have behind := (named.after (outcome_rest_lt given)).after (outcome_rest_lt mark)
  exact .define word called opened given mark (behind.here .block body)

theorem composed_attempt (word : t.kind = .keyword .essayer) :
    Composes (.statement s) (t :: ts) rest := by
  rw [outcome_attempt word] at read
  obtain ⟨⟨colon, us⟩, mark, read⟩ := bind_ok read
  obtain ⟨⟨ss, vs⟩, body, read⟩ := bind_ok read
  obtain ⟨⟨sauf, ws⟩, caught, read⟩ := bind_ok read
  obtain ⟨⟨colon', xs⟩, mark', read⟩ := bind_ok read
  obtain ⟨⟨ss', ys⟩, handler, same⟩ := bind_ok read
  cases same
  have behind := inner.after (outcome_rest_lt mark)
  have last := (behind.after (outcome_rest_lt body)).after (outcome_rest_lt caught) |>.colon mark'
  exact .attempt word mark (behind.here .block body) caught mark' (last.here .block handler)

end Forms

section Goals

variable {ts : List Token}

theorem composed_statement (before : Before rank Composed .statement ts) :
    Composed .statement ts := by
  intro s rest read
  change outcome (Grammar.statement ts) = .ok (s, rest) at read
  cases ts with
  | nil =>
    rw [outcome_statement_nil] at read
    cases read
  | cons t us =>
  cases form t with
  | branch word => exact composed_branch before.rest read word
  | whileLoop word => exact composed_while before.rest read word
  | repeatLoop word => exact composed_repeat before.rest read word
  | forEach word => exact composed_forEach before.rest read word
  | define word => exact composed_define before.rest read word
  | attempt word => exact composed_attempt before.rest read word
  | print word =>
    rw [outcome_print word] at read
    obtain ⟨⟨given, vs⟩, line, same⟩ := bind_ok read
    cases same
    exact .print word line
  | giveBack word =>
    rw [outcome_giveBack word] at read
    obtain ⟨⟨value, vs⟩, line, same⟩ := bind_ok read
    cases same
    exact .giveBack word line
  | importModule word =>
    rw [outcome_import word] at read
    obtain ⟨⟨name, vs⟩, called, same⟩ := bind_ok read
    cases same
    exact .importModule word called
  | named kind =>
    rw [outcome_namedStatement kind] at read
    exact composes_of_namedStatement kind read
  | misplaced found =>
    rw [outcome_misplaced found] at read
    cases read
  | expression plain allowed =>
    rw [outcome_plain plain allowed] at read
    obtain ⟨⟨e, vs⟩, line, same⟩ := bind_ok read
    cases same
    exact .expression plain allowed line

theorem composed_block (before : Before rank Composed .block ts) : Composed .block ts := by
  intro body rest read
  change outcome (Grammar.block ts) = .ok (body, rest) at read
  rcases lacks_or_cons (.layout .indent) (skipNewlines ts) with flat | ⟨t, us, found, mark⟩
  · rw [outcome_block_flat flat] at read
    cases read
  · rw [outcome_block found mark] at read
    exact .block found mark (before.shorter .blockBody (length_le_of_skipNewlines found) read)

theorem composed_blockBody (before : Before rank Composed .blockBody ts) :
    Composed .blockBody ts := by
  intro body rest read
  change outcome (Grammar.blockBody ts) = .ok (body, rest) at read
  cases found : skipNewlines ts with
  | nil =>
    rw [outcome_blockBody_nil found] at read
    cases read
    exact .bodyEnd found
  | cons t us =>
    have le := length_le_of_skipNewlines found
    by_cases mark : t.kind = .layout .dedent
    · rw [outcome_blockBody_close found mark] at read
      cases read
      exact .bodyClose found mark
    · rw [outcome_blockBody found mark] at read
      obtain ⟨⟨s, vs⟩, first, read⟩ := bind_ok read
      obtain ⟨⟨ss, ws⟩, more, same⟩ := bind_ok read
      cases same
      exact .bodyMore found mark (before.lower .statement (by decide) le first)
        (before.shorter .blockBody (Nat.lt_of_lt_of_le (outcome_rest_lt first) le) more)

theorem composed_clauses (before : Before rank Composed .clauses ts) : Composed .clauses ts := by
  intro cs rest read
  change outcome (Grammar.clauses ts) = .ok (cs, rest) at read
  rcases lacks_or_cons (.keyword .sinonSi) ts with other | ⟨t, us, rfl, word⟩
  · rw [outcome_clauses_end other] at read
    cases read
    exact .clausesEnd other
  · rw [outcome_clauses word] at read
    obtain ⟨⟨condition, vs⟩, test, read⟩ := bind_ok read
    obtain ⟨⟨colon, ws⟩, mark, read⟩ := bind_ok read
    obtain ⟨⟨ss, xs⟩, body, read⟩ := bind_ok read
    obtain ⟨⟨others, ys⟩, further, same⟩ := bind_ok read
    cases same
    have behind := (before.rest.after (outcome_rest_lt test)).colon mark
    exact .clause word test mark (behind.here .block body)
      ((behind.after (outcome_rest_lt body)).here .clauses further)

theorem composed_otherwise (before : Before rank Composed .otherwise ts) :
    Composed .otherwise ts := by
  intro last rest read
  change outcome (Grammar.otherwise ts) = .ok (last, rest) at read
  rcases lacks_or_cons (.keyword .sinon) ts with other | ⟨t, us, rfl, word⟩
  · rw [outcome_otherwise_end other] at read
    cases read
    exact .otherwiseEnd other
  · rw [outcome_otherwise word] at read
    obtain ⟨⟨colon, vs⟩, mark, read⟩ := bind_ok read
    obtain ⟨⟨ss, ws⟩, body, same⟩ := bind_ok read
    cases same
    exact .otherwise word mark ((before.rest.after (outcome_rest_lt mark)).here .block body)

theorem composed_statements (before : Before rank Composed .statements ts) :
    Composed .statements ts := by
  intro body rest read
  change outcome (Grammar.statements ts) = .ok (body, rest) at read
  cases found : skipNewlines ts with
  | nil =>
    rw [outcome_statements_nil found] at read
    cases read
    exact .scriptEnd found
  | cons t us =>
    have le := length_le_of_skipNewlines found
    by_cases word : t.kind = .keyword .meow
    · rw [outcome_statements_close found word] at read
      cases read
      exact .scriptClose found word
    · rw [outcome_statements found word] at read
      obtain ⟨⟨s, vs⟩, first, read⟩ := bind_ok read
      obtain ⟨⟨ss, ws⟩, more, same⟩ := bind_ok read
      cases same
      exact .scriptMore found word (before.lower .statement (by decide) le first)
        (before.shorter .statements (Nat.lt_of_lt_of_le (outcome_rest_lt first) le) more)

end Goals

theorem composed (goal : StmtGoal) (ts : List Token) : Composed goal ts := by
  refine holds_of_before rank (fun goal ts before => ?_) goal ts
  cases goal with
  | statement => exact composed_statement before
  | block => exact composed_block before
  | blockBody => exact composed_blockBody before
  | clauses => exact composed_clauses before
  | otherwise => exact composed_otherwise before
  | statements => exact composed_statements before

end StmtGoal

theorem composes_statement {ts us : List Token} {s : Stmt}
    (read : outcome (statement ts) = .ok (s, us)) : Composes (.statement s) ts us :=
  StmtGoal.composed .statement ts read

theorem composes_script {ts us : List Token} {ss : List Stmt}
    (read : outcome (statements ts) = .ok (ss, us)) : Composes (.script ss) ts us :=
  StmtGoal.composed .statements ts read

/-! What is left -/

theorem skip_suffix (kind : Kind) (ts : List Token) : skip kind ts <:+ ts := by
  cases ts with
  | nil => exact List.suffix_refl _
  | cons t rest =>
    rw [skip]
    split
    · exact List.suffix_cons _ _
    · exact List.suffix_refl _

theorem skipNewlines_suffix {ts us : List Token} (h : skipNewlines ts = us) : us <:+ ts :=
  h ▸ List.dropWhile_suffix _

theorem expect_suffix {kind : Kind} {cause : Cause} {ts us : List Token} {t : Token}
    (h : outcome (expect kind cause ts) = .ok (t, us)) : us <:+ ts := by
  obtain ⟨-, rfl⟩ := outcome_expect_ok h
  exact List.suffix_cons _ _

theorem Composes.suffix {part : Part} {ts rest : List Token} (h : Composes part ts rest) :
    rest <:+ ts := by
  have expr {level : Level} {e : Expr} {ts us : List Token}
      (read : outcome (Grammar.expression level ts) = .ok (e, us)) : us <:+ ts :=
    (expression_takes level ts).suffix read
  have behind {t : Token} {ts us : List Token} (h : us <:+ ts) : us <:+ t :: ts :=
    h.trans (List.suffix_cons _ _)
  induction h with
  | print word line => exact behind ((line_takes _).1.suffix line)
  | branch word test mark inner further ending ih ih' ih'' =>
    exact behind (ih''.trans (ih'.trans (ih.trans
      ((expect_suffix mark).trans ((skip_suffix _ _).trans (expr test))))))
  | whileLoop word test mark inner ih =>
    exact behind (ih.trans ((expect_suffix mark).trans (expr test)))
  | repeatLoop word times mark inner ih =>
    exact behind (ih.trans ((expect_suffix mark).trans ((skip_suffix _ _).trans (expr times))))
  | forEach word called among whole mark inner ih =>
    exact behind (ih.trans ((expect_suffix mark).trans ((expr whole).trans
      ((expect_suffix among).trans (expect_suffix called)))))
  | define word called opened given mark inner ih =>
    exact behind (ih.trans ((expect_suffix mark).trans (((line_takes _).2.2.suffix given).trans
      ((expect_suffix opened).trans (expect_suffix called)))))
  | giveBack word line => exact behind ((line_takes _).2.1.suffix line)
  | attempt word mark inner caught mark' inner' ih ih' =>
    exact behind (ih'.trans ((expect_suffix mark').trans ((skip_suffix _ _).trans
      ((expect_suffix caught).trans (ih.trans (expect_suffix mark))))))
  | importModule word called => exact behind (expect_suffix called)
  | assign kind mark line => exact behind (behind (expr line))
  | assignItem kind mark target mark' line =>
    exact (expr line).trans ((List.suffix_cons _ _).trans (expr target))
  | item kind mark line noAssign => exact expr line
  | named kind noAssign noItem line => exact expr line
  | expression plain allowed line => exact expr line
  | block found mark inner ih => exact (behind ih).trans (skipNewlines_suffix found)
  | bodyEnd found => exact List.nil_suffix
  | bodyClose found mark => exact (List.suffix_cons _ _).trans (skipNewlines_suffix found)
  | bodyMore found other first more ih ih' =>
    exact ih'.trans (ih.trans (skipNewlines_suffix found))
  | clause word test mark inner further ih ih' =>
    exact behind (ih'.trans (ih.trans
      ((expect_suffix mark).trans ((skip_suffix _ _).trans (expr test)))))
  | clausesEnd other => exact List.suffix_refl _
  | otherwise word mark inner ih => exact behind (ih.trans (expect_suffix mark))
  | otherwiseEnd other => exact List.suffix_refl _
  | scriptEnd found => exact List.nil_suffix
  | scriptClose found word => exact skipNewlines_suffix found
  | scriptMore found other first more ih ih' =>
    exact ih'.trans (ih.trans (skipNewlines_suffix found))

end Miaou.Grammar
