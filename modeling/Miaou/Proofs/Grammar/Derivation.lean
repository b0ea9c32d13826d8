import Miaou.Proofs.Grammar.Induction

/-!
The grammar of expressions as a relation. `Derives phrase ts rest` says that the reader of the
phrase takes what `ts` has before `rest`, with the look-ahead each rule asks for. It holds exactly
when the reader succeeds, so properties of what is read are proved by induction on derivations.
-/

namespace Miaou.Grammar

/-- What a reader of expressions has read; three of them go on from an operand before them. -/
inductive Phrase where
  | expression (level : Level) (e : Expr)
  | operations (c : Chain) (left e : Expr)
  | exponent (base e : Expr)
  | accesses (object e : Expr)
  | primary (e : Expr)
  | arguments (es : List Expr)
  | moreArguments (es : List Expr)
  | entries (pairs : List (Expr × Expr))
  | moreEntries (pairs : List (Expr × Expr))

inductive Derives : Phrase → List Token → List Token → Prop where
  | chain {c : Chain} {left e : Expr} {ts us rest : List Token}
      (first : Derives (.expression c.operands left) ts us)
      (more : Derives (.operations c left e) us rest) : Derives (.expression (.chain c) e) ts rest
  | not {t : Token} {e : Expr} {us rest : List Token} (word : t.kind = .keyword .non)
      (operand : Derives (.expression .negation e) us rest) :
      Derives (.expression .negation (.unary t.position .not e)) (t :: us) rest
  | affirmed {e : Expr} {ts rest : List Token} (other : Lacks (.keyword .non) ts)
      (inner : Derives (.expression (.chain .comparison) e) ts rest) :
      Derives (.expression .negation e) ts rest
  | power {base e : Expr} {ts us rest : List Token}
      (first : Derives (.expression .sign base) ts us)
      (more : Derives (.exponent base e) us rest) : Derives (.expression .power e) ts rest
  | sign {t : Token} {op : UnaryOp} {e : Expr} {us rest : List Token}
      (mark : sign? t.kind = some op) (operand : Derives (.expression .sign e) us rest) :
      Derives (.expression .sign (.unary t.position op e)) (t :: us) rest
  | unsigned {e : Expr} {ts rest : List Token} (other : ∀ t ∈ ts.head?, sign? t.kind = none)
      (inner : Derives (.expression .postfixes e) ts rest) : Derives (.expression .sign e) ts rest
  | postfixes {object e : Expr} {ts us rest : List Token}
      (first : Derives (.primary object) ts us) (more : Derives (.accesses object e) us rest) :
      Derives (.expression .postfixes e) ts rest
  | operationsEnd {c : Chain} {left : Expr} {ts : List Token}
      (other : ∀ t ∈ ts.head?, c.operator? t.kind = none) :
      Derives (.operations c left left) ts ts
  | operation {c : Chain} {t : Token} {op : BinaryOp} {left right e : Expr}
      {us vs rest : List Token} (mark : c.operator? t.kind = some op)
      (operand : Derives (.expression c.operands right) us vs)
      (more : Derives (.operations c (.binary left.position op left right) e) vs rest) :
      Derives (.operations c left e) (t :: us) rest
  | exponentEnd {base : Expr} {ts : List Token} (other : Lacks (.symbol .starStar) ts) :
      Derives (.exponent base base) ts ts
  | exponent {t : Token} {base e : Expr} {us rest : List Token}
      (mark : t.kind = .symbol .starStar) (operand : Derives (.expression .power e) us rest) :
      Derives (.exponent base (.binary base.position .pow base e)) (t :: us) rest
  | accessesEnd {object : Expr} {ts : List Token} (noCall : Lacks (.symbol .leftParen) ts)
      (noItem : Lacks (.symbol .leftBracket) ts) (noPoint : Lacks (.symbol .dot) ts) :
      Derives (.accesses object object) ts ts
  | call {t : Token} {object e : Expr} {function : String} {given : List Expr}
      {us vs rest : List Token} (mark : t.kind = .symbol .leftParen)
      (path : object.path? = some function) (group : Derives (.arguments given) us vs)
      (more : Derives (.accesses (.call object.position function given) e) vs rest) :
      Derives (.accesses object e) (t :: us) rest
  | item {t u : Token} {object index e : Expr} {us vs rest : List Token}
      (mark : t.kind = .symbol .leftBracket)
      (inner : Derives (.expression .lowest index) us (u :: vs))
      (close : u.kind = .symbol .rightBracket)
      (more : Derives (.accesses (.item object.position object index) e) vs rest) :
      Derives (.accesses object e) (t :: us) rest
  | attribute {t u : Token} {object e : Expr} {us rest : List Token}
      (mark : t.kind = .symbol .dot) (name : namesAttribute u.kind = true)
      (more : Derives (.accesses (.attribute object.position object u.lexeme) e) us rest) :
      Derives (.accesses object e) (t :: u :: us) rest
  | literal {t : Token} {value : Literal} {rest : List Token}
      (found : literal? t.kind t.payload = some value) :
      Derives (.primary (.literal t.position value)) (t :: rest) rest
  | identifier {t : Token} {rest : List Token} (kind : t.kind = .identifier) :
      Derives (.primary (.identifier t.position t.lexeme)) (t :: rest) rest
  | compteur {t : Token} {rest : List Token} (kind : t.kind = .keyword .compteur) :
      Derives (.primary (.identifier t.position "compteur")) (t :: rest) rest
  | group {t u : Token} {e : Expr} {us rest : List Token} (mark : t.kind = .symbol .leftParen)
      (inner : Derives (.expression .lowest e) us (u :: rest))
      (close : u.kind = .symbol .rightParen) : Derives (.primary e) (t :: us) rest
  | list {t u : Token} {items : List Expr} {us rest : List Token}
      (word : t.kind = .keyword .liste) (mark : u.kind = .symbol .leftParen)
      (group : Derives (.arguments items) us rest) :
      Derives (.primary (.list t.position items)) (t :: u :: us) rest
  | dict {t u : Token} {pairs : List (Expr × Expr)} {us rest : List Token}
      (word : t.kind = .keyword .dictionnaire) (mark : u.kind = .symbol .leftParen)
      (group : Derives (.entries pairs) us rest) :
      Derives (.primary (.dict t.position pairs)) (t :: u :: us) rest
  | question {t : Token} {prompt : Expr} {us rest : List Token}
      (word : t.kind = .keyword .demander)
      (inner : Derives (.expression .lowest prompt) (question us).2 rest) :
      Derives (.primary (.call t.position (question us).1 [prompt])) (t :: us) rest
  | random {t : Token} {given : List Expr} {us inner rest : List Token}
      (word : t.kind = .keyword .aleatoire) (call : argumentGroup? us = some inner)
      (group : Derives (.arguments given) inner rest) :
      Derives (.primary (.call t.position "aleatoire" given)) (t :: us) rest
  | range {t : Token} {low high : Expr} {us vs rest : List Token}
      (word : t.kind = .keyword .aleatoire) (call : argumentGroup? us = none)
      (first : Derives (.expression (.chain .sum) low) us vs)
      (second : Derives (.expression (.chain .sum) high) (skipRangeWord vs) rest) :
      Derives (.primary (.call t.position "aleatoire" [low, high])) (t :: us) rest
  | builtin {t u : Token} {function : Builtin} {given : List Expr} {us rest : List Token}
      (word : t.kind = .builtin function) (mark : u.kind = .symbol .leftParen)
      (group : Derives (.arguments given) us rest) :
      Derives (.primary (.call t.position function.function given)) (t :: u :: us) rest
  | bare {t : Token} {function : Builtin} {operand : Expr} {us rest : List Token}
      (word : t.kind = .builtin function) (noCall : Lacks (.symbol .leftParen) us)
      (inner : Derives (.expression .postfixes operand) us rest) :
      Derives (.primary (.call t.position function.function [operand])) (t :: us) rest
  | argumentsNone {t : Token} {rest : List Token} (close : t.kind = .symbol .rightParen) :
      Derives (.arguments []) (t :: rest) rest
  | argument {t : Token} {e : Expr} {es : List Expr} {us vs rest : List Token}
      (other : t.kind ≠ .symbol .rightParen)
      (first : Derives (.expression .lowest e) (t :: us) vs)
      (more : Derives (.moreArguments es) vs rest) :
      Derives (.arguments (e :: es)) (t :: us) rest
  | argumentsMore {t : Token} {es : List Expr} {us rest : List Token}
      (mark : t.kind = .symbol .comma) (more : Derives (.arguments es) us rest) :
      Derives (.moreArguments es) (t :: us) rest
  | argumentsEnd {t : Token} {rest : List Token} (close : t.kind = .symbol .rightParen) :
      Derives (.moreArguments []) (t :: rest) rest
  | entriesNone {t : Token} {rest : List Token} (close : t.kind = .symbol .rightParen) :
      Derives (.entries []) (t :: rest) rest
  | entry {t u : Token} {key value : Expr} {pairs : List (Expr × Expr)}
      {us vs ws rest : List Token} (other : t.kind ≠ .symbol .rightParen)
      (first : Derives (.expression .lowest key) (t :: us) (u :: vs))
      (mark : u.kind = .symbol .colon) (second : Derives (.expression .lowest value) vs ws)
      (more : Derives (.moreEntries pairs) ws rest) :
      Derives (.entries ((key, value) :: pairs)) (t :: us) rest
  | entriesMore {t : Token} {pairs : List (Expr × Expr)} {us rest : List Token}
      (mark : t.kind = .symbol .comma) (more : Derives (.entries pairs) us rest) :
      Derives (.moreEntries pairs) (t :: us) rest
  | entriesEnd {t : Token} {rest : List Token} (close : t.kind = .symbol .rightParen) :
      Derives (.moreEntries []) (t :: rest) rest

def Phrase.Reads : Phrase → List Token → List Token → Prop
  | .expression level e, ts, rest => outcome (Grammar.expression level ts) = .ok (e, rest)
  | .operations c left e, ts, rest => outcome (Grammar.operations c left ts) = .ok (e, rest)
  | .exponent base e, ts, rest => outcome (Grammar.exponent base ts) = .ok (e, rest)
  | .accesses object e, ts, rest => outcome (Grammar.accesses object ts) = .ok (e, rest)
  | .primary e, ts, rest => outcome (Grammar.primary ts) = .ok (e, rest)
  | .arguments es, ts, rest => outcome (Grammar.arguments ts) = .ok (es, rest)
  | .moreArguments es, ts, rest => outcome (Grammar.moreArguments ts) = .ok (es, rest)
  | .entries pairs, ts, rest => outcome (Grammar.entries ts) = .ok (pairs, rest)
  | .moreEntries pairs, ts, rest => outcome (Grammar.moreEntries ts) = .ok (pairs, rest)

theorem lacks_of_kind {kind other : Kind} {t : Token} {ts : List Token} (h : t.kind = kind)
    (ne : kind ≠ other) : Lacks other (t :: ts) := lacks_cons.mpr (h ▸ ne)

theorem bind_of_ok {α β ε : Type} {x : Except ε α} {a : α} (h : x = .ok a) (f : α → Except ε β) :
    (x >>= f) = f a := by
  subst h
  rfl

theorem Derives.reads {phrase : Phrase} {ts rest : List Token} (h : Derives phrase ts rest) :
    phrase.Reads ts rest := by
  induction h with
  | chain first more ih ih' => exact (outcome_chain _ _).trans ((bind_of_ok ih _).trans ih')
  | not word operand ih => exact (outcome_not word _).trans (bind_of_ok ih _)
  | affirmed other inner ih => exact (outcome_negation other).trans ih
  | power first more ih ih' => exact (outcome_power _).trans ((bind_of_ok ih _).trans ih')
  | sign mark operand ih => exact (outcome_sign mark _).trans (bind_of_ok ih _)
  | unsigned other inner ih => exact (outcome_unsigned other).trans ih
  | postfixes first more ih ih' => exact (outcome_postfixes _).trans ((bind_of_ok ih _).trans ih')
  | operationsEnd other => exact outcome_operations_end _ other
  | operation mark operand more ih ih' =>
    exact (outcome_operation mark _ _).trans ((bind_of_ok ih _).trans ih')
  | exponentEnd other => exact outcome_exponent_end _ other
  | exponent mark operand ih => exact (outcome_exponent mark _ _).trans (bind_of_ok ih _)
  | accessesEnd noCall noItem noPoint => exact outcome_accesses_end _ noCall noItem noPoint
  | call mark path group more ih ih' =>
    exact (outcome_call mark path _).trans ((bind_of_ok ih _).trans ih')
  | item mark inner close more ih ih' =>
    refine (outcome_item mark _ _).trans ((bind_of_ok ih _).trans ?_)
    exact (bind_of_ok (outcome_expect _ close _) _).trans ih'
  | «attribute» mark name more ih => exact (outcome_attribute mark name _ _).trans ih
  | literal found => exact outcome_literal found _
  | identifier kind => exact outcome_identifier kind _
  | compteur kind => exact outcome_compteur kind _
  | group mark inner close ih =>
    refine (outcome_group mark _).trans ((bind_of_ok ih _).trans ?_)
    exact bind_of_ok (outcome_expect _ close _) _
  | list word mark group ih =>
    refine (outcome_list word _).trans ((bind_of_ok (outcome_expect _ mark _) _).trans ?_)
    exact bind_of_ok ih _
  | dict word mark group ih =>
    refine (outcome_dict word _).trans ((bind_of_ok (outcome_expect _ mark _) _).trans ?_)
    exact bind_of_ok ih _
  | question word inner ih => exact (outcome_question word _).trans (bind_of_ok ih _)
  | random word call group ih => exact (outcome_random word call).trans (bind_of_ok ih _)
  | range word call first second ih ih' =>
    refine (outcome_range word call).trans ((bind_of_ok ih _).trans ?_)
    exact bind_of_ok ih' _
  | builtin word mark group ih => exact (outcome_builtin word mark _).trans (bind_of_ok ih _)
  | bare word noCall inner ih =>
    exact (outcome_builtin_bare word noCall).trans (bind_of_ok ih _)
  | argumentsNone close => exact outcome_arguments_none close _
  | argument other first more ih ih' =>
    refine (outcome_arguments other _).trans ((bind_of_ok ih _).trans ?_)
    exact bind_of_ok ih' _
  | argumentsMore mark more ih => exact (outcome_moreArguments mark _).trans ih
  | argumentsEnd close =>
    refine (outcome_moreArguments_end (lacks_of_kind close (by decide))).trans ?_
    exact bind_of_ok (outcome_expect _ close _) _
  | entriesNone close => exact outcome_entries_none close _
  | entry other first mark second more ih ih' ih'' =>
    refine (outcome_entries other _).trans ((bind_of_ok ih _).trans ?_)
    refine (bind_of_ok (outcome_expect _ mark _) _).trans ((bind_of_ok ih' _).trans ?_)
    exact bind_of_ok ih'' _
  | entriesMore mark more ih => exact (outcome_moreEntries mark _).trans ih
  | entriesEnd close =>
    refine (outcome_moreEntries_end (lacks_of_kind close (by decide))).trans ?_
    exact bind_of_ok (outcome_expect _ close _) _

/-! What is read is derived -/

namespace ExprGoal

def phrase : (goal : ExprGoal) → goal.Value → Phrase
  | .expression level, e => .expression level e
  | .operations c left, e => .operations c left e
  | .exponent base, e => .exponent base e
  | .accesses object, e => .accesses object e
  | .primary, e => .primary e
  | .arguments, es => .arguments es
  | .moreArguments, es => .moreArguments es
  | .entries, pairs => .entries pairs
  | .moreEntries, pairs => .moreEntries pairs

def Derived (goal : ExprGoal) (ts : List Token) : Prop :=
  ∀ ⦃a : goal.Value⦄ ⦃rest : List Token⦄, goal.reader ts = .ok (a, rest) →
    Derives (goal.phrase a) ts rest

variable {ts : List Token}

theorem derived_expression {level : Level} (before : Before rank Derived (.expression level) ts) :
    Derived (.expression level) ts := by
  intro e rest read
  change outcome (Grammar.expression level ts) = .ok (e, rest) at read
  cases level with
  | chain c =>
    rw [outcome_chain] at read
    obtain ⟨⟨left, us⟩, first, more⟩ := bind_ok read
    exact .chain (before.first (.expression c.operands) (Level.rank_operands c) first)
      (before.shorter (.operations c left) (outcome_rest_lt first) more)
  | negation =>
    rcases lacks_or_cons (.keyword .non) ts with other | ⟨t, us, rfl, word⟩
    · rw [outcome_negation other] at read
      exact .affirmed other
        (before.first (.expression (.chain .comparison)) (by decide) read)
    · rw [outcome_not word] at read
      obtain ⟨⟨operand, vs⟩, inner, same⟩ := bind_ok read
      cases same
      exact .not word (before.rest.here (.expression .negation) inner)
  | power =>
    rw [outcome_power] at read
    obtain ⟨⟨base, us⟩, first, more⟩ := bind_ok read
    exact .power (before.first (.expression .sign) (by decide) first)
      (before.shorter (.exponent base) (outcome_rest_lt first) more)
  | sign =>
    rcases none_or_cons sign? ts with other | ⟨t, us, op, rfl, mark⟩
    · rw [outcome_unsigned other] at read
      exact .unsigned other (before.first (.expression .postfixes) (by decide) read)
    · rw [outcome_sign mark] at read
      obtain ⟨⟨operand, vs⟩, inner, same⟩ := bind_ok read
      cases same
      exact .sign mark (before.rest.here (.expression .sign) inner)
  | postfixes =>
    rw [outcome_postfixes] at read
    obtain ⟨⟨object, us⟩, first, more⟩ := bind_ok read
    exact .postfixes (before.first .primary (by decide) first)
      (before.shorter (.accesses object) (outcome_rest_lt first) more)

theorem derived_operations {c : Chain} {left : Expr}
    (before : Before rank Derived (.operations c left) ts) :
    Derived (.operations c left) ts := by
  intro e rest read
  change outcome (Grammar.operations c left ts) = .ok (e, rest) at read
  rcases none_or_cons c.operator? ts with other | ⟨t, us, op, rfl, mark⟩
  · rw [outcome_operations_end left other] at read
    cases read
    exact .operationsEnd other
  · rw [outcome_operation mark] at read
    obtain ⟨⟨right, vs⟩, inner, more⟩ := bind_ok read
    exact .operation mark (before.rest.here (.expression c.operands) inner)
      ((before.rest.after (outcome_rest_lt inner)).here (.operations c _) more)

theorem derived_exponent {base : Expr} (before : Before rank Derived (.exponent base) ts) :
    Derived (.exponent base) ts := by
  intro e rest read
  change outcome (Grammar.exponent base ts) = .ok (e, rest) at read
  rcases lacks_or_cons (.symbol .starStar) ts with other | ⟨t, us, rfl, mark⟩
  · rw [outcome_exponent_end base other] at read
    cases read
    exact .exponentEnd other
  · rw [outcome_exponent mark] at read
    obtain ⟨⟨operand, vs⟩, inner, same⟩ := bind_ok read
    cases same
    exact .exponent mark (before.rest.here (.expression .power) inner)

theorem derived_accesses {object : Expr} (before : Before rank Derived (.accesses object) ts) :
    Derived (.accesses object) ts := by
  intro e rest read
  change outcome (Grammar.accesses object ts) = .ok (e, rest) at read
  cases access ts with
  | group us mark =>
    cases path : object.path? with
    | none =>
      rw [outcome_uncalled mark path] at read
      cases read
    | some function =>
      rw [outcome_call mark path] at read
      obtain ⟨⟨given, vs⟩, group, more⟩ := bind_ok read
      exact .call mark path (before.rest.here .arguments group)
        ((before.rest.after (outcome_rest_lt group)).here (.accesses _) more)
  | item us mark =>
    rw [outcome_item mark] at read
    obtain ⟨⟨index, vs⟩, inner, closed⟩ := bind_ok read
    obtain ⟨⟨u, ws⟩, close, more⟩ := bind_ok closed
    have behind := (before.rest.after (outcome_rest_lt inner)).after (outcome_rest_lt close)
    obtain ⟨kind, rfl⟩ := outcome_expect_ok close
    exact .item mark (before.rest.here (.expression .lowest) inner) kind
      (behind.here (.accesses _) more)
  | «attribute» us mark name =>
    rw [outcome_attribute mark name] at read
    exact .attribute mark name
      ((before.rest.after (Nat.lt_succ_self _)).here (.accesses _) read)
  | unnamed mark name =>
    rw [outcome_unnamed mark object name] at read
    cases read
  | nothing noCall noItem noPoint =>
    rw [outcome_accesses_end object noCall noItem noPoint] at read
    cases read
    exact .accessesEnd noCall noItem noPoint

theorem derived_random {t : Token} {us rest : List Token} {e : Expr}
    (word : t.kind = .keyword .aleatoire) (inner : UpTo Derived us.length)
    (read : outcome (Grammar.primary (t :: us)) = .ok (e, rest)) :
    Derives (.primary e) (t :: us) rest := by
  cases call : argumentGroup? us with
  | some group =>
    rw [outcome_random word call] at read
    obtain ⟨⟨es, vs⟩, given, same⟩ := bind_ok read
    cases same
    exact .random word call ((inner.after (argumentGroup?_length call)).here .arguments given)
  | none =>
    rw [outcome_range word call] at read
    obtain ⟨⟨low, vs⟩, first, more⟩ := bind_ok read
    obtain ⟨⟨high, ws⟩, second, same⟩ := bind_ok more
    cases same
    have behind := (inner.after (outcome_rest_lt first)).mono (skipRangeWord_length_le vs)
    exact .range word call (inner.here (.expression (.chain .sum)) first)
      (behind.here (.expression (.chain .sum)) second)

theorem derived_builtin {t : Token} {us rest : List Token} {function : Builtin} {e : Expr}
    (word : t.kind = .builtin function) (inner : UpTo Derived us.length)
    (read : outcome (Grammar.primary (t :: us)) = .ok (e, rest)) :
    Derives (.primary e) (t :: us) rest := by
  rcases lacks_or_cons (.symbol .leftParen) us with noCall | ⟨u, vs, rfl, mark⟩
  · rw [outcome_builtin_bare word noCall] at read
    obtain ⟨⟨operand, vs⟩, bare, same⟩ := bind_ok read
    cases same
    exact .bare word noCall (inner.here (.expression .postfixes) bare)
  · rw [outcome_builtin word mark] at read
    obtain ⟨⟨es, ws⟩, group, same⟩ := bind_ok read
    cases same
    exact .builtin word mark ((inner.after (Nat.lt_succ_self _)).here .arguments group)

theorem derived_primary (before : Before rank Derived .primary ts) : Derived .primary ts := by
  intro e rest read
  change outcome (Grammar.primary ts) = .ok (e, rest) at read
  cases ts with
  | nil =>
    rw [outcome_unknown (by simp)] at read
    cases read
  | cons t us =>
  cases operand t with
  | literal found =>
    rw [outcome_literal found] at read
    cases read
    exact .literal found
  | identifier kind =>
    rw [outcome_identifier kind] at read
    cases read
    exact .identifier kind
  | compteur word =>
    rw [outcome_compteur word] at read
    cases read
    exact .compteur word
  | group mark =>
    rw [outcome_group mark] at read
    obtain ⟨⟨e, vs⟩, inner, closed⟩ := bind_ok read
    obtain ⟨⟨u, ws⟩, close, same⟩ := bind_ok closed
    obtain ⟨kind, rfl⟩ := outcome_expect_ok close
    cases same
    exact .group mark (before.rest.here (.expression .lowest) inner) kind
  | list word =>
    rw [outcome_list word] at read
    obtain ⟨⟨u, vs⟩, mark, items⟩ := bind_ok read
    have behind := before.rest.after (outcome_rest_lt mark)
    obtain ⟨kind, rfl⟩ := outcome_expect_ok mark
    obtain ⟨⟨es, ws⟩, group, same⟩ := bind_ok items
    cases same
    exact .list word kind (behind.here .arguments group)
  | dict word =>
    rw [outcome_dict word] at read
    obtain ⟨⟨u, vs⟩, mark, items⟩ := bind_ok read
    have behind := before.rest.after (outcome_rest_lt mark)
    obtain ⟨kind, rfl⟩ := outcome_expect_ok mark
    obtain ⟨⟨pairs, ws⟩, group, same⟩ := bind_ok items
    cases same
    exact .dict word kind (behind.here .entries group)
  | question word =>
    rw [outcome_question word] at read
    obtain ⟨⟨prompt, vs⟩, inner, same⟩ := bind_ok read
    cases same
    exact .question word
      ((before.rest.mono (question_length_le us)).here (.expression .lowest) inner)
  | random word => exact derived_random word before.rest read
  | builtin word => exact derived_builtin word before.rest read
  | nothing closed =>
    rw [outcome_unknown (by simpa using closed)] at read
    cases read

theorem derived_arguments (before : Before rank Derived .arguments ts) :
    Derived .arguments ts := by
  intro es rest read
  change outcome (Grammar.arguments ts) = .ok (es, rest) at read
  cases ts with
  | nil =>
    rw [Grammar.arguments] at read
    cases read
  | cons t us =>
    by_cases close : t.kind = .symbol .rightParen
    · rw [outcome_arguments_none close] at read
      cases read
      exact .argumentsNone close
    · rw [outcome_arguments close] at read
      obtain ⟨⟨e, vs⟩, inner, others⟩ := bind_ok read
      obtain ⟨⟨es, ws⟩, more, same⟩ := bind_ok others
      cases same
      exact .argument close (before.first (.expression .lowest) (by decide) inner)
        (before.shorter .moreArguments (outcome_rest_lt inner) more)

theorem derived_moreArguments (before : Before rank Derived .moreArguments ts) :
    Derived .moreArguments ts := by
  intro es rest read
  change outcome (Grammar.moreArguments ts) = .ok (es, rest) at read
  rcases lacks_or_cons (.symbol .comma) ts with noComma | ⟨t, us, rfl, mark⟩
  · rw [outcome_moreArguments_end noComma] at read
    obtain ⟨⟨u, us⟩, close, same⟩ := bind_ok read
    obtain ⟨kind, rfl⟩ := outcome_expect_ok close
    cases same
    exact .argumentsEnd kind
  · rw [outcome_moreArguments mark] at read
    exact .argumentsMore mark (before.rest.here .arguments read)

theorem derived_entries (before : Before rank Derived .entries ts) : Derived .entries ts := by
  intro pairs rest read
  change outcome (Grammar.entries ts) = .ok (pairs, rest) at read
  cases ts with
  | nil =>
    rw [Grammar.entries] at read
    cases read
  | cons t us =>
    by_cases close : t.kind = .symbol .rightParen
    · rw [outcome_entries_none close] at read
      cases read
      exact .entriesNone close
    · rw [outcome_entries close] at read
      obtain ⟨⟨key, vs⟩, first, named⟩ := bind_ok read
      obtain ⟨⟨u, ws⟩, mark, valued⟩ := bind_ok named
      have behind := (before.behind (outcome_rest_lt first)).after (outcome_rest_lt mark)
      obtain ⟨kind, rfl⟩ := outcome_expect_ok mark
      obtain ⟨⟨value, xs⟩, second, others⟩ := bind_ok valued
      obtain ⟨⟨pairs, ys⟩, more, same⟩ := bind_ok others
      cases same
      exact .entry close (before.first (.expression .lowest) (by decide) first) kind
        (behind.here (.expression .lowest) second)
        ((behind.after (outcome_rest_lt second)).here .moreEntries more)

theorem derived_moreEntries (before : Before rank Derived .moreEntries ts) :
    Derived .moreEntries ts := by
  intro pairs rest read
  change outcome (Grammar.moreEntries ts) = .ok (pairs, rest) at read
  rcases lacks_or_cons (.symbol .comma) ts with noComma | ⟨t, us, rfl, mark⟩
  · rw [outcome_moreEntries_end noComma] at read
    obtain ⟨⟨u, us⟩, close, same⟩ := bind_ok read
    obtain ⟨kind, rfl⟩ := outcome_expect_ok close
    cases same
    exact .entriesEnd kind
  · rw [outcome_moreEntries mark] at read
    exact .entriesMore mark (before.rest.here .entries read)

theorem derived (goal : ExprGoal) (ts : List Token) : Derived goal ts := by
  refine holds_of_before rank (fun goal ts before => ?_) goal ts
  cases goal with
  | expression level => exact derived_expression before
  | operations c left => exact derived_operations before
  | exponent base => exact derived_exponent before
  | accesses object => exact derived_accesses before
  | primary => exact derived_primary before
  | arguments => exact derived_arguments before
  | moreArguments => exact derived_moreArguments before
  | entries => exact derived_entries before
  | moreEntries => exact derived_moreEntries before

end ExprGoal

theorem derives_expression {level : Level} {ts rest : List Token} {e : Expr} :
    Derives (.expression level e) ts rest ↔ outcome (expression level ts) = .ok (e, rest) :=
  ⟨Derives.reads, fun read => ExprGoal.derived (.expression level) ts read⟩

/-! What is left -/

theorem question_suffix (ts : List Token) : (question ts).2 <:+ ts := by
  cases ts with
  | nil => exact List.suffix_refl _
  | cons t rest =>
    rw [question]
    split
    · split
      · exact List.suffix_cons _ _
      · exact List.suffix_cons _ _
      · exact List.suffix_refl _
    · exact List.suffix_refl _

theorem skipRangeWord_suffix (ts : List Token) : skipRangeWord ts <:+ ts := by
  cases ts with
  | nil => exact List.suffix_refl _
  | cons t rest =>
    rw [skipRangeWord]
    split
    · exact List.suffix_cons _ _
    · exact List.suffix_refl _

theorem argumentGroup?_suffix {ts inner : List Token} (h : argumentGroup? ts = some inner) :
    inner <:+ ts := by
  cases ts with
  | nil => cases h
  | cons t rest =>
    rw [argumentGroup?] at h
    split at h
    · cases h
      exact List.suffix_cons _ _
    · cases h

theorem Derives.suffix {phrase : Phrase} {ts rest : List Token} (h : Derives phrase ts rest) :
    rest <:+ ts := by
  induction h with
  | operationsEnd other => exact List.suffix_refl _
  | exponentEnd other => exact List.suffix_refl _
  | accessesEnd noCall noItem noPoint => exact List.suffix_refl _
  | chain first more ih ih' => exact ih'.trans ih
  | power first more ih ih' => exact ih'.trans ih
  | postfixes first more ih ih' => exact ih'.trans ih
  | argument other first more ih ih' => exact ih'.trans ih
  | affirmed other inner ih => exact ih
  | unsigned other inner ih => exact ih
  | not word operand ih => exact ih.trans (List.suffix_cons _ _)
  | sign mark operand ih => exact ih.trans (List.suffix_cons _ _)
  | exponent mark operand ih => exact ih.trans (List.suffix_cons _ _)
  | argumentsMore mark more ih => exact ih.trans (List.suffix_cons _ _)
  | entriesMore mark more ih => exact ih.trans (List.suffix_cons _ _)
  | bare word noCall inner ih => exact ih.trans (List.suffix_cons _ _)
  | operation mark operand more ih ih' => exact (ih'.trans ih).trans (List.suffix_cons _ _)
  | call mark path group more ih ih' => exact (ih'.trans ih).trans (List.suffix_cons _ _)
  | item mark inner close more ih ih' =>
    exact ((ih'.trans (List.suffix_cons _ _)).trans ih).trans (List.suffix_cons _ _)
  | «attribute» mark name more ih =>
    exact (ih.trans (List.suffix_cons _ _)).trans (List.suffix_cons _ _)
  | literal found => exact List.suffix_cons _ _
  | identifier kind => exact List.suffix_cons _ _
  | compteur kind => exact List.suffix_cons _ _
  | argumentsNone close => exact List.suffix_cons _ _
  | argumentsEnd close => exact List.suffix_cons _ _
  | entriesNone close => exact List.suffix_cons _ _
  | entriesEnd close => exact List.suffix_cons _ _
  | group mark inner close ih =>
    exact ((List.suffix_cons _ _).trans ih).trans (List.suffix_cons _ _)
  | list word mark group ih => exact (ih.trans (List.suffix_cons _ _)).trans (List.suffix_cons _ _)
  | dict word mark group ih => exact (ih.trans (List.suffix_cons _ _)).trans (List.suffix_cons _ _)
  | builtin word mark group ih =>
    exact (ih.trans (List.suffix_cons _ _)).trans (List.suffix_cons _ _)
  | question word inner ih =>
    exact (ih.trans (question_suffix _)).trans (List.suffix_cons _ _)
  | random word call group ih =>
    exact (ih.trans (argumentGroup?_suffix call)).trans (List.suffix_cons _ _)
  | range word call first second ih ih' =>
    exact ((ih'.trans (skipRangeWord_suffix _)).trans ih).trans (List.suffix_cons _ _)
  | entry other first mark second more ih ih' ih'' =>
    exact ((ih''.trans ih').trans (List.suffix_cons _ _)).trans ih

end Miaou.Grammar
