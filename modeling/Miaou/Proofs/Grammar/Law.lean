import Miaou.Proofs.Grammar.Induction

/-!
Laws of reading. A property of readers is a law when it holds of the steps that readers are made
of and is kept when one reading follows another. A law that also holds of the two look-aheads over
more than one token holds of every reader at all tokens, so the recursion of the grammar is gone
through once, here.
-/

namespace Miaou.Grammar

namespace Reader

variable {α β : Type}

def done (a : α) : Reader α := fun ts => .ok (a, ts)

def fail (cause : Cause) : Reader α := fun ts => .error ⟨cause, ts⟩

def pass : Reader Unit := fun ts => .ok ((), ts.tail)

def andThen (r : Reader α) (next : α → Reader β) : Reader β :=
  fun ts => r ts >>= fun (a, us) => next a us

def expect (kind : Kind) (cause : Cause) : Reader Token := fun ts =>
  outcome (Grammar.expect kind cause ts)

end Reader

def inExpression : Kind → Bool
  | .identifier | .string | .number | .boolean | .symbol _ | .builtin _ => true
  | .keyword .et | .keyword .ou | .keyword .non | .keyword .compteur | .keyword .liste
  | .keyword .dictionnaire | .keyword .demander | .keyword .aleatoire => true
  | _ => false

def blamesExpression : Cause → Bool
  | .unknownInstruction | .missingDelimiter _ | .missingElement _ => true
  | _ => false

abbrev Property := {α : Type} → Reader α → List Token → Prop

/-- A property that the steps of reading have, when they pass over tokens of some kinds and fail
for some causes, and that is kept from one reading to the next. -/
structure Law (P : Property) (kinds : Kind → Bool) (causes : Cause → Bool) : Prop where
  /-- What a reader does before other tokens than the next one does not matter. -/
  alike {α : Type} {r r' : Reader α} {ts : List Token} (h : P r' ts)
    (same : ∀ us, us.head? = ts.head? → r us = r' us) : P r ts
  done {α : Type} (a : α) (ts : List Token) : P (Reader.done a) ts
  fail (α : Type) {cause : Cause} (blamed : causes cause = true) (ts : List Token) :
    P (Reader.fail cause : Reader α) ts
  pass {t : Token} (kind : kinds t.kind = true) (rest : List Token) : P Reader.pass (t :: rest)
  andThen {α β : Type} {r : Reader α} {next : α → Reader β} {ts : List Token} (first : P r ts)
    (second : ∀ a us, r ts = .ok (a, us) → P (next a) us) : P (r.andThen next) ts

abbrev ExprGoal.Kept (P : Property) (goal : ExprGoal) (ts : List Token) : Prop := P goal.reader ts

/-- The property passes the look-ahead that tells the arguments of a random number from its
bounds. -/
def LooksAhead (P : Property) : Prop :=
  ∀ t rest, t.kind = .keyword .aleatoire →
    UpTo (ExprGoal.Kept P) rest.length → P Reader.primary (t :: rest)

theorem Lacks.alike {kind : Kind} {ts us : List Token} (h : Lacks kind ts)
    (head : us.head? = ts.head?) : Lacks kind us := fun t ht => h t (head ▸ ht)

theorem of_head?_nil {Q : List Token → Prop} (h : Q []) :
    ∀ us, us.head? = ([] : List Token).head? → Q us := by
  intro us head
  cases us with
  | nil => exact h
  | cons u us => cases head

theorem of_head?_cons {Q : List Token → Prop} {t : Token} {rest : List Token}
    (h : ∀ us, Q (t :: us)) : ∀ us, us.head? = (t :: rest).head? → Q us := by
  intro us head
  cases us with
  | nil => cases head
  | cons u us =>
    cases head
    exact h us

namespace Law

variable {P : Property} {kinds : Kind → Bool} {causes : Cause → Bool}

theorem step (law : Law P kinds causes) {α : Type} {r r' : Reader α} {t : Token}
    {rest : List Token} (kind : kinds t.kind = true) (h : P r' rest)
    (same : ∀ us, r (t :: us) = r' us) : P r (t :: rest) := by
  have passed : P (Reader.pass.andThen fun _ => r') (t :: rest) := by
    refine law.andThen (law.pass kind rest) fun _ us read => ?_
    cases read
    exact h
  exact law.alike passed (of_head?_cons same)

theorem refuse (law : Law P kinds causes) {α : Type} {r : Reader α} {ts : List Token}
    {cause : Cause} (blamed : causes cause = true)
    (same : ∀ us, us.head? = ts.head? → r us = .error ⟨cause, us⟩) : P r ts :=
  law.alike (law.fail α blamed ts) same

theorem stop (law : Law P kinds causes) {α : Type} {r : Reader α} {ts : List Token} {a : α}
    (same : ∀ us, us.head? = ts.head? → r us = .ok (a, us)) : P r ts :=
  law.alike (law.done a ts) same

theorem map (law : Law P kinds causes) {α β : Type} {r : Reader α} {ts : List Token}
    (first : P r ts) (f : α → β) : P (r.andThen fun a => Reader.done (f a)) ts :=
  law.andThen first fun _ us _ => law.done _ us

theorem expect (law : Law P kinds causes) {kind : Kind} {cause : Cause}
    (passed : kinds kind = true) (blamed : causes cause = true) (ts : List Token) :
    P (Reader.expect kind cause) ts := by
  rcases lacks_or_cons kind ts with lacks | ⟨t, rest, rfl, same⟩
  · exact law.refuse blamed fun us head => outcome_expect_lacks cause (lacks.alike head)
  · exact law.step (same ▸ passed) (law.done t rest) fun us => outcome_expect cause same us

/-! Expressions -/

theorem inExpression_operator {c : Chain} {kind : Kind} {op : BinaryOp}
    (h : c.operator? kind = some op) : inExpression kind = true := by
  unfold Chain.operator? at h
  split at h <;> first | rfl | cases h

theorem inExpression_sign {kind : Kind} {op : UnaryOp} (h : sign? kind = some op) :
    inExpression kind = true := by
  unfold sign? at h
  split at h <;> first | rfl | cases h

theorem inExpression_attribute {kind : Kind} (h : namesAttribute kind = true) :
    inExpression kind = true := by
  simp only [namesAttribute, Bool.or_eq_true, decide_eq_true_eq] at h
  rcases h with (rfl | rfl) | h
  · rfl
  · rfl
  · cases kind <;> first | rfl | nomatch h

theorem inExpression_literal {t : Token} {value : Literal}
    (h : literal? t.kind t.payload = some value) : inExpression t.kind = true := by
  unfold literal? at h
  split at h <;> rename_i kind _ <;> first | (rw [kind]; rfl) | cases h

theorem question_cons (t : Token) :
    (t.kind = .identifier ∧ ∃ name, ∀ us, Grammar.question (t :: us) = (name, us)) ∨
      ∀ us, Grammar.question (t :: us) = ("demander_texte", t :: us) := by
  by_cases kind : t.kind = .identifier
  · by_cases texte : Lexeme.lowered t.lexeme.toList = "texte"
    · refine .inl ⟨kind, "demander_texte", fun us => ?_⟩
      rw [Grammar.question, if_pos kind, texte]
      rfl
    by_cases nombre : Lexeme.lowered t.lexeme.toList = "nombre"
    · refine .inl ⟨kind, "demander_nombre", fun us => ?_⟩
      rw [Grammar.question, if_pos kind, nombre]
      rfl
    refine .inr fun us => ?_
    rw [Grammar.question, if_pos kind]
    split
    · exact absurd ‹_› texte
    · exact absurd ‹_› nombre
    · rfl
  · exact .inr fun us => by rw [Grammar.question, if_neg kind]

section Expressions

variable (law : Law P kinds causes) (within : ∀ kind, inExpression kind = true → kinds kind = true)
  (blames : ∀ cause, blamesExpression cause = true → causes cause = true)

include law within

theorem question {α : Type} {r : String → Reader α} (ts : List Token)
    (h : P (r (Grammar.question ts).1) (Grammar.question ts).2) :
    P (fun us => r (Grammar.question us).1 (Grammar.question us).2) ts := by
  cases ts with
  | nil => exact law.alike h (of_head?_nil rfl)
  | cons t rest =>
    rcases question_cons t with ⟨kind, name, passed⟩ | kept
    · rw [passed rest] at h
      exact law.step (within _ (by rw [kind]; rfl)) h fun us => by rw [passed us]
    · rw [kept rest] at h
      exact law.alike h (of_head?_cons fun us => by rw [kept us])

theorem skipRangeWord {α : Type} {r : Reader α} (ts : List Token)
    (h : P r (Grammar.skipRangeWord ts)) : P (fun us => r (Grammar.skipRangeWord us)) ts := by
  cases ts with
  | nil => exact law.alike h (of_head?_nil rfl)
  | cons t rest =>
    by_cases word : (t.kind = .identifier && Lexeme.lowered t.lexeme.toList = "a") = true
    · have passed (us : List Token) : Grammar.skipRangeWord (t :: us) = us := if_pos word
      rw [passed rest] at h
      rw [Bool.and_eq_true, decide_eq_true_eq] at word
      exact law.step (within _ (by rw [word.1]; rfl)) h fun us => by rw [passed us]
    · have kept (us : List Token) : Grammar.skipRangeWord (t :: us) = t :: us := if_neg word
      rw [kept rest] at h
      exact law.alike h (of_head?_cons fun us => by rw [kept us])

include blames

variable {ts : List Token}

omit blames in
theorem expression_kept {level : Level}
    (before : Before ExprGoal.rank (ExprGoal.Kept P) (.expression level) ts) :
    P (Reader.expression level) ts := by
  cases level with
  | chain c =>
    exact law.alike (law.andThen (before.first (.expression c.operands) (Level.rank_operands c))
      fun left us read => before.shorter (.operations c left) (outcome_rest_lt read))
      fun us _ => outcome_chain c us
  | negation =>
    rcases lacks_or_cons (.keyword .non) ts with other | ⟨t, rest, rfl, word⟩
    · exact law.alike (before.first (.expression (.chain .comparison)) (by decide))
        fun us head => outcome_negation (other.alike head)
    · exact law.step (within _ (by rw [word]; rfl))
        (law.map (before.rest.here (.expression .negation)) _) fun us => outcome_not word us
  | power =>
    exact law.alike (law.andThen (before.first (.expression .sign) (by decide))
      fun base us read => before.shorter (.exponent base) (outcome_rest_lt read))
      fun us _ => outcome_power us
  | sign =>
    rcases none_or_cons sign? ts with other | ⟨t, rest, op, rfl, mark⟩
    · exact law.alike (before.first (.expression .postfixes) (by decide))
        fun us head => outcome_unsigned fun t ht => other t (head ▸ ht)
    · exact law.step (within _ (inExpression_sign mark))
        (law.map (before.rest.here (.expression .sign)) _) fun us => outcome_sign mark us
  | postfixes =>
    exact law.alike (law.andThen (before.first .primary (by decide))
      fun object us read => before.shorter (.accesses object) (outcome_rest_lt read))
      fun us _ => outcome_postfixes us

omit blames in
theorem operations_kept {c : Chain} {left : Expr}
    (before : Before ExprGoal.rank (ExprGoal.Kept P) (.operations c left) ts) :
    P (Reader.operations c left) ts := by
  rcases none_or_cons c.operator? ts with other | ⟨t, rest, op, rfl, mark⟩
  · exact law.stop fun us head => outcome_operations_end left fun t ht => other t (head ▸ ht)
  · let whole (right : Expr) : ExprGoal := .operations c (.binary left.position op left right)
    exact law.step (within _ (inExpression_operator mark))
      (law.andThen (before.rest.here (.expression c.operands)) fun right us read =>
        (before.rest.after (outcome_rest_lt read)).here (whole right))
      fun us => outcome_operation mark left us

omit blames in
theorem exponent_kept {base : Expr}
    (before : Before ExprGoal.rank (ExprGoal.Kept P) (.exponent base) ts) :
    P (Reader.exponent base) ts := by
  rcases lacks_or_cons (.symbol .starStar) ts with other | ⟨t, rest, rfl, mark⟩
  · exact law.stop fun us head => outcome_exponent_end base (other.alike head)
  · exact law.step (within _ (by rw [mark]; rfl))
      (law.map (before.rest.here (.expression .power)) _) fun us => outcome_exponent mark base us

theorem accesses_kept {object : Expr}
    (before : Before ExprGoal.rank (ExprGoal.Kept P) (.accesses object) ts) :
    P (Reader.accesses object) ts := by
  have inside {t : Token} {s : Symbol} (mark : t.kind = .symbol s) : kinds t.kind = true :=
    within _ (by rw [mark]; rfl)
  cases access ts with
  | group rest mark =>
    cases path : object.path? with
    | none =>
      exact law.refuse (blames .unknownInstruction rfl)
        (of_head?_cons fun us => outcome_uncalled mark path us)
    | some function =>
      let call (given : List Expr) : ExprGoal := .accesses (.call object.position function given)
      exact law.step (inside mark) (law.andThen (before.rest.here .arguments)
        fun given us read => (before.rest.after (outcome_rest_lt read)).here (call given))
        fun us => outcome_call mark path us
  | item rest mark =>
    let item (index : Expr) : ExprGoal := .accesses (.item object.position object index)
    exact law.step (inside mark) (law.andThen (before.rest.here (.expression .lowest))
      fun index us read => law.andThen (law.expect (within (.symbol .rightBracket) rfl)
        (blames (.missingDelimiter .rightBracket) rfl) us) fun _ vs read' =>
          ((before.rest.after (outcome_rest_lt read)).after (outcome_rest_lt read')).here
            (item index))
      fun us => outcome_item mark object us
  | @«attribute» t u rest mark name =>
    have named : P (fun us => Reader.accesses object (t :: us)) (u :: rest) :=
      law.step (within _ (inExpression_attribute name))
        ((before.rest.after (Nat.lt_succ_self _)).here (.accesses _))
        fun us => outcome_attribute mark name object us
    exact law.step (inside mark) named fun us => rfl
  | @unnamed t rest mark name =>
    have refused : P (fun us => Reader.accesses object (t :: us)) rest :=
      law.refuse (blames (.missingElement .attributeName) rfl)
        fun us head => outcome_unnamed mark object fun u hu => name u (head ▸ hu)
    exact law.step (inside mark) refused fun us => rfl
  | nothing noCall noItem noPoint =>
    exact law.stop fun us head => outcome_accesses_end object (noCall.alike head)
      (noItem.alike head) (noPoint.alike head)

theorem primary_kept (looksAhead : LooksAhead P)
    (before : Before ExprGoal.rank (ExprGoal.Kept P) .primary ts) :
    P Reader.primary ts := by
  have word {t : Token} {kind : Kind} (same : t.kind = kind) (member : inExpression kind = true) :
      kinds t.kind = true := within _ (by rw [same]; exact member)
  have opened (us : List Token) :
      P (Reader.expect (.symbol .leftParen) (.missingDelimiter .leftParen)) us :=
    law.expect (within _ rfl) (blames _ rfl) us
  cases ts with
  | nil => exact law.refuse (blames _ rfl) (of_head?_nil (outcome_unknown (by simp)))
  | cons t rest =>
  cases operand t with
  | literal found =>
    exact law.step (within _ (inExpression_literal found)) (law.done _ rest)
      fun us => outcome_literal found us
  | identifier kind =>
    exact law.step (word kind rfl) (law.done _ rest) fun us => outcome_identifier kind us
  | compteur kind =>
    exact law.step (word kind rfl) (law.done _ rest) fun us => outcome_compteur kind us
  | group mark =>
    exact law.step (word mark rfl) (law.andThen (before.rest.here (.expression .lowest))
      fun e us _ => law.map (law.expect (within (.symbol .rightParen) rfl)
        (blames (.missingDelimiter .rightParen) rfl) us) fun _ => e)
      fun us => outcome_group mark us
  | list kind =>
    exact law.step (word kind rfl) (law.andThen (opened rest) fun _ us read =>
      law.map ((before.rest.after (outcome_rest_lt read)).here .arguments) (Expr.list t.position))
      fun us => outcome_list kind us
  | dict kind =>
    exact law.step (word kind rfl) (law.andThen (opened rest) fun _ us read =>
      law.map ((before.rest.after (outcome_rest_lt read)).here .entries) (Expr.dict t.position))
      fun us => outcome_dict kind us
  | question kind =>
    let r (name : String) : Reader Expr := (Reader.expression .lowest).andThen fun e =>
      Reader.done (.call t.position name [e])
    have inner := before.rest.mono (question_length_le rest)
    have asked : P (r (Grammar.question rest).1) (Grammar.question rest).2 :=
      law.map (inner.here (.expression .lowest)) _
    exact law.step (word kind rfl) (law.question within rest asked)
      fun us => outcome_question kind us
  | random kind => exact looksAhead t rest kind before.rest
  | @builtin function kind =>
    suffices P (fun us => Reader.primary (t :: us)) rest from
      law.step (word kind rfl) this fun us => rfl
    rcases lacks_or_cons (.symbol .leftParen) rest with noCall | ⟨u, inner, rfl, mark⟩
    · exact law.alike (law.map (before.rest.here (.expression .postfixes))
        fun e => Expr.call t.position function.function [e])
        fun us head => outcome_builtin_bare kind (noCall.alike head)
    · exact law.step (word mark rfl)
        (law.map ((before.rest.after (Nat.lt_succ_self _)).here .arguments) _)
        fun us => outcome_builtin kind mark us
  | nothing closed =>
    exact law.refuse (blames _ rfl)
      (of_head?_cons fun us => outcome_unknown (by simpa using closed))

theorem arguments_kept (before : Before ExprGoal.rank (ExprGoal.Kept P) .arguments ts) :
    P Reader.arguments ts := by
  cases ts with
  | nil =>
    exact law.refuse (blames (.missingDelimiter .rightParen) rfl)
      (of_head?_nil (by rw [Reader.arguments, Grammar.arguments]; rfl))
  | cons t rest =>
    by_cases close : t.kind = .symbol .rightParen
    · exact law.step (within _ (by rw [close]; rfl)) (law.done [] rest)
        fun us => outcome_arguments_none close us
    · exact law.alike (law.andThen (before.first (.expression .lowest) (by decide))
        fun e us read => law.map (before.shorter .moreArguments (outcome_rest_lt read)) (e :: ·))
        (of_head?_cons fun us => outcome_arguments close us)

theorem moreArguments_kept
    (before : Before ExprGoal.rank (ExprGoal.Kept P) .moreArguments ts) :
    P Reader.moreArguments ts := by
  rcases lacks_or_cons (.symbol .comma) ts with noComma | ⟨t, rest, rfl, mark⟩
  · exact law.alike (law.map (law.expect (within (.symbol .rightParen) rfl)
      (blames (.missingDelimiter .rightParen) rfl) ts) fun _ => [])
      fun us head => outcome_moreArguments_end (noComma.alike head)
  · exact law.step (within _ (by rw [mark]; rfl)) (before.rest.here .arguments)
      fun us => outcome_moreArguments mark us

theorem entries_kept (before : Before ExprGoal.rank (ExprGoal.Kept P) .entries ts) :
    P Reader.entries ts := by
  cases ts with
  | nil =>
    exact law.refuse (blames (.missingDelimiter .rightParen) rfl)
      (of_head?_nil (by rw [Reader.entries, Grammar.entries]; rfl))
  | cons t rest =>
    by_cases close : t.kind = .symbol .rightParen
    · exact law.step (within _ (by rw [close]; rfl)) (law.done [] rest)
        fun us => outcome_entries_none close us
    · -- Behind the colon of the first entry.
      have behind {us vs : List Token} {key : Expr} {colon : Token}
          (read : outcome (Grammar.expression .lowest (t :: rest)) = .ok (key, us))
          (mark : outcome (expectColon us) = .ok (colon, vs)) :=
        (before.behind (outcome_rest_lt read)).after (outcome_rest_lt mark)
      exact law.alike (law.andThen (before.first (.expression .lowest) (by decide))
        fun key us read => law.andThen (law.expect (within (.symbol .colon) rfl)
          (blames (.missingElement .colon) rfl) us) fun _ vs mark =>
            law.andThen ((behind read mark).here (.expression .lowest)) fun value ws read' =>
              law.map (((behind read mark).after (outcome_rest_lt read')).here .moreEntries)
                ((key, value) :: ·))
        (of_head?_cons fun us => outcome_entries close us)

theorem moreEntries_kept
    (before : Before ExprGoal.rank (ExprGoal.Kept P) .moreEntries ts) :
    P Reader.moreEntries ts := by
  rcases lacks_or_cons (.symbol .comma) ts with noComma | ⟨t, rest, rfl, mark⟩
  · exact law.alike (law.map (law.expect (within (.symbol .rightParen) rfl)
      (blames (.missingDelimiter .rightParen) rfl) ts) fun _ => [])
      fun us head => outcome_moreEntries_end (noComma.alike head)
  · exact law.step (within _ (by rw [mark]; rfl)) (before.rest.here .entries)
      fun us => outcome_moreEntries mark us

theorem expressions (looksAhead : LooksAhead P) (goal : ExprGoal) (ts : List Token) :
    P goal.reader ts := by
  change goal.Kept P ts
  refine holds_of_before ExprGoal.rank (fun goal ts before => ?_) goal ts
  cases goal with
  | expression level => exact law.expression_kept within before
  | operations c left => exact law.operations_kept within before
  | exponent base => exact law.exponent_kept within before
  | accesses object => exact law.accesses_kept within blames before
  | primary => exact law.primary_kept within blames looksAhead before
  | arguments => exact law.arguments_kept within blames before
  | moreArguments => exact law.moreArguments_kept within blames before
  | entries => exact law.entries_kept within blames before
  | moreEntries => exact law.moreEntries_kept within blames before

end Expressions

end Law

/-! What follows an operand -/

namespace Reader

def behind : Level → Expr → Reader Expr
  | .chain c, e => (behind c.operands e).andThen (operations c)
  | .negation, e => behind (.chain .comparison) e
  | .power, e => (behind .sign e).andThen exponent
  | .sign, e => behind .postfixes e
  | .postfixes, e => accesses e
termination_by level => level.rank
decreasing_by
  · exact Level.rank_operands _
  all_goals decide

theorem behind_chain (c : Chain) :
    behind (.chain c) = fun e => (behind c.operands e).andThen (operations c) := by
  funext e
  rw [behind]

theorem behind_negation : behind .negation = behind (.chain .comparison) := by
  funext e
  rw [behind.eq_def]

theorem behind_power : behind .power = fun e => (behind .sign e).andThen exponent := by
  funext e
  rw [behind.eq_def]

theorem behind_sign : behind .sign = behind .postfixes := by
  funext e
  rw [behind.eq_def]

theorem behind_postfixes : behind .postfixes = accesses := by
  funext e
  rw [behind]

variable {α β γ : Type}

@[simp] theorem andThen_assoc (r : Reader α) (next : α → Reader β) (last : β → Reader γ) :
    (r.andThen next).andThen last = r.andThen fun a => (next a).andThen last := by
  funext ts
  rw [andThen, andThen, andThen]
  cases r ts with
  | error failure => rfl
  | ok found => rfl

theorem andThen_congr {r r' : Reader α} {ts ts' : List Token} (h : r ts = r' ts')
    (next : α → Reader β) : r.andThen next ts = r'.andThen next ts' := by
  rw [andThen, h]
  rfl

theorem expression_behind {t : Token} (h : opens t = true) (rest : List Token) :
    ∀ level, expression level (t :: rest) = primary.andThen (behind level) (t :: rest)
  | .chain c => by
    have operand := expression_behind h rest c.operands
    rw [behind_chain, ← andThen_assoc, andThen, ← operand]
    exact outcome_chain c _
  | .negation => by
    rw [behind_negation, ← expression_behind h rest (.chain .comparison)]
    exact outcome_negation (lacks_cons.mpr (kind_ne_non h))
  | .power => by
    have base := expression_behind h rest .sign
    rw [behind_power, ← andThen_assoc, andThen, ← base]
    exact outcome_power _
  | .sign => by
    rw [behind_sign, ← expression_behind h rest .postfixes]
    refine outcome_unsigned ?_
    rintro u ⟨⟩
    exact sign?_of_opens h
  | .postfixes => by
    rw [behind_postfixes]
    exact outcome_postfixes _
termination_by level => level.rank
decreasing_by
  all_goals first | exact Level.rank_operands _ | decide

end Reader

theorem Law.behind {P : Property} {kinds : Kind → Bool} {causes : Cause → Bool}
    (law : Law P kinds causes) (within : ∀ kind, inExpression kind = true → kinds kind = true)
    (blames : ∀ cause, blamesExpression cause = true → causes cause = true)
    (looksAhead : LooksAhead P) (level : Level) (e : Expr) (ts : List Token) :
    P (Reader.behind level e) ts := by
  have all := law.expressions within blames looksAhead
  induction level, e using Reader.behind.induct generalizing ts with
  | case1 c e ih =>
    rw [Reader.behind_chain]
    exact law.andThen (ih ts) fun left us _ => all (.operations c left) us
  | case2 e ih =>
    rw [Reader.behind_negation]
    exact ih ts
  | case3 e ih =>
    rw [Reader.behind_power]
    exact law.andThen (ih ts) fun base us _ => all (.exponent base) us
  | case4 e ih =>
    rw [Reader.behind_sign]
    exact ih ts
  | case5 e =>
    rw [Reader.behind_postfixes]
    exact all (.accesses e) ts

end Miaou.Grammar
