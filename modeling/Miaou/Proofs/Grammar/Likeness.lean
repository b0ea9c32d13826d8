import Mathlib.Data.List.Forall2
import Miaou.Proofs.Grammar.Induction

/-!
Likenesses. A likeness says which tokens, expressions and statements are alike, such that whatever
is made of like parts is alike and like tokens are of one kind. Readers make what they read out of
tokens and look at no more than kinds, names and the shapes of operands. So like tokens are read
as like programs, or refused for the same cause at like tokens, whatever the likeness is: places,
spellings and values that a likeness leaves open make no difference to what is accepted.
-/

namespace Miaou

def Expr.isItem : Expr → Bool
  | .item _ _ _ => true
  | _ => false

namespace Grammar

/-- Which tokens, expressions, statements and programs are alike. Each rule of the grammar has a
field: it makes like things of like tokens and like operands. -/
structure Likeness where
  token : Token → Token → Prop
  -- What is also asked of tokens that stand behind a point, where they are read as names.
  pointed : Token → Token → Prop
  expr : Expr → Expr → Prop
  stmt : Stmt → Stmt → Prop
  program : Program → Program → Prop
  -- What readers look at.
  kind {t t' : Token} (same : token t t') : t'.kind = t.kind
  name {t t' : Token} (same : token t t') (word : t.kind = .identifier) : t'.lexeme = t.lexeme
  path {e e' : Expr} (same : expr e e') : e'.path?.isSome = e.path?.isSome
  isItem {e e' : Expr} (same : expr e e') : e'.isItem = e.isItem
  -- What they make of it.
  literal {t t' : Token} (same : token t t') :
    Option.Rel (fun v v' => expr (.literal t.position v) (.literal t'.position v'))
      (literal? t.kind t.payload) (literal? t'.kind t'.payload)
  identifier {t t' : Token} (same : token t t') (name : String) :
    expr (.identifier t.position name) (.identifier t'.position name)
  unary {t t' : Token} {e e' : Expr} (same : token t t') (op : UnaryOp) (operand : expr e e') :
    expr (.unary t.position op e) (.unary t'.position op e')
  binary {e e' d d' : Expr} (left : expr e e') (op : BinaryOp) (right : expr d d') :
    expr (.binary e.position op e d) (.binary e'.position op e' d')
  function {t t' : Token} {es es' : List Expr} (same : token t t') (name : String)
    (given : List.Forall₂ expr es es') :
    expr (.call t.position name es) (.call t'.position name es')
  call {e e' : Expr} {f f' : String} {es es' : List Expr} (object : expr e e')
    (path : e.path? = some f) (path' : e'.path? = some f') (given : List.Forall₂ expr es es') :
    expr (.call e.position f es) (.call e'.position f' es')
  list {t t' : Token} {es es' : List Expr} (same : token t t')
    (items : List.Forall₂ expr es es') : expr (.list t.position es) (.list t'.position es')
  dict {t t' : Token} {ps ps' : List (Expr × Expr)} (same : token t t')
    (entries : List.Forall₂ (fun p p' => expr p.1 p'.1 ∧ expr p.2 p'.2) ps ps') :
    expr (.dict t.position ps) (.dict t'.position ps')
  item {e e' d d' : Expr} (object : expr e e') (index : expr d d') :
    expr (.item e.position e d) (.item e'.position e' d')
  member {t t' : Token} {e e' : Expr} (object : expr e e') (same : pointed t t')
    (word : namesAttribute t.kind = true) :
    expr (.attribute e.position e t.lexeme) (.attribute e'.position e' t'.lexeme)
  assign {t t' : Token} {e e' : Expr} (same : token t t') (name : String) (value : expr e e') :
    stmt (.assign t.position name e) (.assign t'.position name e')
  assignIndex {t t' : Token} {p p' : Position} {o o' i i' e e' : Expr} (same : token t t')
    (target : expr (.item p o i) (.item p' o' i')) (value : expr e e') :
    stmt (.assignIndex t.position o i e) (.assignIndex t'.position o' i' e')
  branch {t t' : Token} {e e' : Expr} {ss ss' : List Stmt} {cs cs' : List (Expr × List Stmt)}
    {os os' : Option (List Stmt)} (same : token t t') (condition : expr e e')
    (body : List.Forall₂ stmt ss ss')
    (clauses : List.Forall₂ (fun c c' => expr c.1 c'.1 ∧ List.Forall₂ stmt c.2 c'.2) cs cs')
    (otherwise : Option.Rel (List.Forall₂ stmt) os os') :
    stmt (.branch t.position e ss cs os) (.branch t'.position e' ss' cs' os')
  whileLoop {t t' : Token} {e e' : Expr} {ss ss' : List Stmt} (same : token t t')
    (condition : expr e e') (body : List.Forall₂ stmt ss ss') :
    stmt (.whileLoop t.position e ss) (.whileLoop t'.position e' ss')
  repeatLoop {t t' : Token} {e e' : Expr} {ss ss' : List Stmt} (same : token t t')
    (count : expr e e') (body : List.Forall₂ stmt ss ss') :
    stmt (.repeatLoop t.position e ss) (.repeatLoop t'.position e' ss')
  forEach {t t' : Token} {e e' : Expr} {ss ss' : List Stmt} (same : token t t') (name : String)
    (items : expr e e') (body : List.Forall₂ stmt ss ss') :
    stmt (.forEach t.position name e ss) (.forEach t'.position name e' ss')
  define {t t' : Token} {ss ss' : List Stmt} (same : token t t') (name : String)
    (names : List String) (body : List.Forall₂ stmt ss ss') :
    stmt (.define t.position name names ss) (.define t'.position name names ss')
  giveBack {t t' : Token} {e e' : Option Expr} (same : token t t') (value : Option.Rel expr e e') :
    stmt (.giveBack t.position e) (.giveBack t'.position e')
  attempt {t t' : Token} {ss ss' hs hs' : List Stmt} (same : token t t')
    (body : List.Forall₂ stmt ss ss') (handler : List.Forall₂ stmt hs hs') :
    stmt (.attempt t.position ss hs) (.attempt t'.position ss' hs')
  importModule {t t' : Token} (same : token t t') (name : String) :
    stmt (.importModule t.position name) (.importModule t'.position name)
  named {t t' : Token} {e e' : Expr} (same : token t t') (value : expr e e') :
    stmt (.expression t.position e) (.expression t'.position e')
  bare {e e' : Expr} (value : expr e e') :
    stmt (.expression e.position e) (.expression e'.position e')
  script {t t' : Token} {ss ss' : List Stmt} (same : token t t')
    (body : List.Forall₂ stmt ss ss') : program ⟨ss, t.position⟩ ⟨ss', t'.position⟩

namespace Likeness

variable {α β : Type} (L : Likeness)

inductive Tokens : (ts ts' : List Token) → Prop where
  | nil : Tokens [] []
  | cons {t t' : Token} {rest rest' : List Token} (token : L.token t t')
      (more : Tokens rest rest')
      (point : t.kind = .symbol .dot → ∀ u ∈ rest.head?, ∀ u' ∈ rest'.head?, L.pointed u u') :
      Tokens (t :: rest) (t' :: rest')

def entry (p p' : Expr × Expr) : Prop := L.expr p.1 p'.1 ∧ L.expr p.2 p'.2

def clause (c c' : Expr × List Stmt) : Prop := L.expr c.1 c'.1 ∧ List.Forall₂ L.stmt c.2 c'.2

inductive Reads (like : α → α → Prop) :
    (result result' : Except Failure (α × List Token)) → Prop where
  | ok {a a' : α} {us us' : List Token} (value : like a a') (rest : L.Tokens us us') :
      Reads like (.ok (a, us)) (.ok (a', us'))
  | error (cause : Cause) {us us' : List Token} (rest : L.Tokens us us') :
      Reads like (.error ⟨cause, us⟩) (.error ⟨cause, us'⟩)

variable {L}

theorem Reads.bind {n : Nat} {like : α → α → Prop} {like' : β → β → Prop}
    {r : Except Failure (Read α n)} {result : Except Failure (α × List Token)}
    {next next' : α × List Token → Except Failure (β × List Token)}
    (first : L.Reads like (outcome r) result)
    (second : ∀ a us, us.length < n → ∀ a' us', like a a' → L.Tokens us us' →
      L.Reads like' (next (a, us)) (next' (a', us'))) :
    L.Reads like' (outcome r >>= next) (result >>= next') := by
  generalize read : outcome r = found at first
  cases first with
  | ok value rest => exact second _ _ (outcome_rest_lt read) _ _ value rest
  | error cause rest => exact .error cause rest

theorem head {p : Kind → Prop} {ts ts' : List Token} (same : L.Tokens ts ts')
    (h : ∀ t ∈ ts.head?, p t.kind) : ∀ t ∈ ts'.head?, p t.kind := by
  cases same with
  | nil => exact h
  | @cons t t' _ _ token =>
    rintro _ ⟨⟩
    rw [L.kind token]
    exact h t rfl

theorem lacks {kind : Kind} {ts ts' : List Token} (same : L.Tokens ts ts')
    (h : Lacks kind ts) : Lacks kind ts' := @head L (· ≠ kind) ts ts' same h

theorem expect (kind : Kind) (cause : Cause) {ts ts' : List Token} (same : L.Tokens ts ts') :
    L.Reads (fun t t' => L.token t t' ∧ t.kind = kind) (outcome (expect kind cause ts))
      (outcome (Grammar.expect kind cause ts')) := by
  rcases lacks_or_cons kind ts with lack | ⟨t, rest, rfl, mark⟩
  · rw [outcome_expect_lacks cause lack, outcome_expect_lacks cause (lacks same lack)]
    exact .error cause same
  · rcases same with _ | ⟨token, more⟩
    rw [outcome_expect cause mark, outcome_expect cause ((L.kind token).trans mark)]
    exact .ok ⟨token, mark⟩ more

theorem commaAhead {ts ts' : List Token} (same : L.Tokens ts ts') (depth : Nat) :
    commaAhead depth ts' = Grammar.commaAhead depth ts := by
  induction same generalizing depth with
  | nil => rfl
  | cons token _ _ ih =>
    cases depth with
    | zero =>
      simp only [Grammar.commaAhead, L.kind token, ih]
    | succ outer =>
      simp only [Grammar.commaAhead, L.kind token, ih]

theorem argumentGroup? {ts ts' : List Token} (same : L.Tokens ts ts') :
    Option.Rel L.Tokens (argumentGroup? ts) (Grammar.argumentGroup? ts') := by
  cases same with
  | nil => exact .none
  | @cons t t' rest rest' token more =>
    have lists : listsArguments rest' = listsArguments rest := by
      have ahead := commaAhead more 0
      cases more with
      | nil => rfl
      | cons token more => rw [listsArguments, listsArguments, ahead, L.kind token]
    rw [Grammar.argumentGroup?, Grammar.argumentGroup?, lists, L.kind token]
    split
    · exact .some more
    · exact .none

theorem question {ts ts' : List Token} (same : L.Tokens ts ts') :
    (question ts').1 = (Grammar.question ts).1 ∧
      L.Tokens (Grammar.question ts).2 (Grammar.question ts').2 := by
  cases same with
  | nil => exact ⟨rfl, .nil⟩
  | cons token more point =>
    rw [Grammar.question, Grammar.question, L.kind token]
    split
    · rename_i word
      rw [L.name token word]
      split
      · exact ⟨rfl, more⟩
      · exact ⟨rfl, more⟩
      · exact ⟨rfl, .cons token more point⟩
    · exact ⟨rfl, .cons token more point⟩

theorem skipRangeWord {ts ts' : List Token} (same : L.Tokens ts ts') :
    L.Tokens (skipRangeWord ts) (Grammar.skipRangeWord ts') := by
  cases same with
  | nil => exact .nil
  | @cons t t' rest rest' token more point =>
    rw [Grammar.skipRangeWord, Grammar.skipRangeWord, L.kind token]
    by_cases word : t.kind = .identifier
    · rw [L.name token word]
      split
      · exact more
      · exact .cons token more point
    · simp only [decide_eq_false word, Bool.false_and, Bool.false_eq_true, if_false]
      exact .cons token more point

theorem opens {t t' : Token} (same : L.token t t') : opens t' = Grammar.opens t := by
  have value : (literal? t'.kind t'.payload).isSome = (literal? t.kind t.payload).isSome := by
    have related := L.literal same
    generalize literal? t.kind t.payload = v at related
    generalize literal? t'.kind t'.payload = v' at related
    cases related <;> rfl
  rw [L.kind same] at value
  unfold Grammar.opens
  rw [L.kind same]
  split <;> first | rfl | exact value

theorem tokens_of_forall₂ (every : ∀ {t t' : Token}, L.token t t' → L.pointed t t')
    {ts ts' : List Token} (same : List.Forall₂ L.token ts ts') : L.Tokens ts ts' := by
  induction same with
  | nil => exact .nil
  | cons token more ih =>
    refine .cons token ih fun _ u first u' first' => ?_
    cases more with
    | nil => cases first
    | cons next _ =>
      cases first
      cases first'
      exact every next

theorem Tokens.forall₂ {ts ts' : List Token} (same : L.Tokens ts ts') :
    List.Forall₂ L.token ts ts' := by
  induction same with
  | nil => exact .nil
  | cons token _ _ ih => exact .cons token ih

/-! Expressions -/

/-- The readers of the goal read like tokens alike, behind like operands. -/
def Alike (L : Likeness) : ExprGoal → List Token → Prop
  | .expression level, ts => ∀ {ts'}, L.Tokens ts ts' →
    L.Reads L.expr (outcome (expression level ts)) (outcome (expression level ts'))
  | .operations c left, ts => ∀ {left' ts'}, L.expr left left' → L.Tokens ts ts' →
    L.Reads L.expr (outcome (operations c left ts)) (outcome (operations c left' ts'))
  | .exponent base, ts => ∀ {base' ts'}, L.expr base base' → L.Tokens ts ts' →
    L.Reads L.expr (outcome (exponent base ts)) (outcome (exponent base' ts'))
  | .accesses object, ts => ∀ {object' ts'}, L.expr object object' → L.Tokens ts ts' →
    L.Reads L.expr (outcome (accesses object ts)) (outcome (accesses object' ts'))
  | .primary, ts => ∀ {ts'}, L.Tokens ts ts' →
    L.Reads L.expr (outcome (primary ts)) (outcome (primary ts'))
  | .arguments, ts => ∀ {ts'}, L.Tokens ts ts' →
    L.Reads (List.Forall₂ L.expr) (outcome (arguments ts)) (outcome (arguments ts'))
  | .moreArguments, ts => ∀ {ts'}, L.Tokens ts ts' →
    L.Reads (List.Forall₂ L.expr) (outcome (moreArguments ts)) (outcome (moreArguments ts'))
  | .entries, ts => ∀ {ts'}, L.Tokens ts ts' →
    L.Reads (List.Forall₂ L.entry) (outcome (entries ts)) (outcome (entries ts'))
  | .moreEntries, ts => ∀ {ts'}, L.Tokens ts ts' →
    L.Reads (List.Forall₂ L.entry) (outcome (moreEntries ts)) (outcome (moreEntries ts'))

section Goals

variable {ts : List Token}

theorem expression_alike {level : Level}
    (before : Before ExprGoal.rank L.Alike (.expression level) ts) :
    L.Alike (.expression level) ts := by
  intro ts' same
  cases level with
  | chain c =>
    rw [outcome_chain, outcome_chain]
    exact (before.first (.expression c.operands) (Level.rank_operands c) same).bind
      fun left _ lt _ _ like rest => before.shorter (.operations c left) lt like rest
  | negation =>
    rcases lacks_or_cons (.keyword .non) ts with other | ⟨t, us, rfl, word⟩
    · rw [outcome_negation other, outcome_negation (lacks same other)]
      exact before.first (.expression (.chain .comparison)) (by decide) same
    · rcases same with _ | ⟨token, more⟩
      rw [outcome_not word, outcome_not ((L.kind token).trans word)]
      exact (before.rest.here (.expression .negation) more).bind
        fun _ _ _ _ _ like rest => .ok (L.unary token .not like) rest
  | power =>
    rw [outcome_power, outcome_power]
    exact (before.first (.expression .sign) (by decide) same).bind
      fun base _ lt _ _ like rest => before.shorter (.exponent base) lt like rest
  | sign =>
    rcases none_or_cons sign? ts with other | ⟨t, us, op, rfl, mark⟩
    · rw [outcome_unsigned other,
        outcome_unsigned (@head L (fun kind => sign? kind = none) ts ts' same other)]
      exact before.first (.expression .postfixes) (by decide) same
    · rcases same with _ | ⟨token, more⟩
      rw [outcome_sign mark, outcome_sign (by rw [L.kind token]; exact mark)]
      exact (before.rest.here (.expression .sign) more).bind
        fun _ _ _ _ _ like rest => .ok (L.unary token op like) rest
  | postfixes =>
    rw [outcome_postfixes, outcome_postfixes]
    exact (before.first .primary (by decide) same).bind
      fun object _ lt _ _ like rest => before.shorter (.accesses object) lt like rest

theorem operations_alike {c : Chain} {left : Expr}
    (before : Before ExprGoal.rank L.Alike (.operations c left) ts) :
    L.Alike (.operations c left) ts := by
  intro left' ts' like same
  rcases none_or_cons c.operator? ts with other | ⟨t, us, op, rfl, mark⟩
  · rw [outcome_operations_end left other, outcome_operations_end left'
      (@head L (fun kind => c.operator? kind = none) ts ts' same other)]
    exact .ok like same
  · rcases same with _ | ⟨token, more⟩
    rw [outcome_operation mark, outcome_operation (by rw [L.kind token]; exact mark)]
    exact (before.rest.here (.expression c.operands) more).bind
      fun right _ lt _ _ like' rest => (before.rest.after lt).here (.operations c _)
        (L.binary like op like') rest

theorem exponent_alike {base : Expr}
    (before : Before ExprGoal.rank L.Alike (.exponent base) ts) : L.Alike (.exponent base) ts := by
  intro base' ts' like same
  rcases lacks_or_cons (.symbol .starStar) ts with other | ⟨t, us, rfl, mark⟩
  · rw [outcome_exponent_end base other, outcome_exponent_end base' (lacks same other)]
    exact .ok like same
  · rcases same with _ | ⟨token, more⟩
    rw [outcome_exponent mark, outcome_exponent ((L.kind token).trans mark)]
    exact (before.rest.here (.expression .power) more).bind
      fun _ _ _ _ _ like' rest => .ok (L.binary like .pow like') rest

theorem accesses_alike {object : Expr}
    (before : Before ExprGoal.rank L.Alike (.accesses object) ts) :
    L.Alike (.accesses object) ts := by
  intro object' ts' like same
  cases access ts with
  | group us mark =>
    rcases same with _ | ⟨token, more, point⟩
    have mark' := (L.kind token).trans mark
    cases path : object.path? with
    | none =>
      have path' : object'.path? = none := by simpa [path] using L.path like
      rw [outcome_uncalled mark path, outcome_uncalled mark' path']
      exact .error _ (.cons token more point)
    | some function =>
      have called : object'.path?.isSome = true := by rw [L.path like, path]; rfl
      obtain ⟨function', path'⟩ := Option.isSome_iff_exists.mp called
      rw [outcome_call mark path, outcome_call mark' path']
      exact (before.rest.here .arguments more).bind fun given _ lt _ _ items rest =>
        (before.rest.after lt).here (.accesses _) (L.call like path path' items) rest
  | item us mark =>
    rcases same with _ | ⟨token, more⟩
    rw [outcome_item mark, outcome_item ((L.kind token).trans mark)]
    refine (before.rest.here (.expression .lowest) more).bind fun _ _ lt _ _ inner rest => ?_
    exact (expect _ _ rest).bind fun _ _ lt' _ _ _ rest' =>
      ((before.rest.after lt).after lt').here (.accesses _) (L.item like inner) rest'
  | «attribute» us mark name =>
    rcases same with _ | ⟨dot, _ | ⟨token, more⟩, point⟩
    rw [outcome_attribute mark name, outcome_attribute ((L.kind dot).trans mark)
      (by rw [L.kind token]; exact name)]
    exact (before.rest.after (Nat.lt_succ_self _)).here (.accesses _)
      (L.member like (point mark _ rfl _ rfl) name) more
  | unnamed mark name =>
    rcases same with _ | ⟨dot, more⟩
    rw [outcome_unnamed mark object name, outcome_unnamed ((L.kind dot).trans mark) object'
      (@head L (fun kind => namesAttribute kind = false) _ _ more name)]
    exact .error _ more
  | nothing noCall noItem noPoint =>
    rw [outcome_accesses_end object noCall noItem noPoint, outcome_accesses_end object'
      (lacks same noCall) (lacks same noItem) (lacks same noPoint)]
    exact .ok like same

theorem literal_alike {t : Token} {us ts' : List Token} {v : Literal}
    (found : literal? t.kind t.payload = some v) (same : L.Tokens (t :: us) ts') :
    L.Reads L.expr (outcome (primary (t :: us))) (outcome (primary ts')) := by
  rcases same with _ | @⟨_, t', _, _, token, more⟩
  have related := L.literal token
  rw [found] at related
  generalize found' : literal? t'.kind t'.payload = v' at related
  cases related with
  | some like =>
    rw [outcome_literal found, outcome_literal found']
    exact .ok like more

theorem random_alike {t : Token} {us ts' : List Token} (word : t.kind = .keyword .aleatoire)
    (inner : UpTo L.Alike us.length) (same : L.Tokens (t :: us) ts') :
    L.Reads L.expr (outcome (primary (t :: us))) (outcome (primary ts')) := by
  rcases same with _ | @⟨_, t', _, us', token, more⟩
  have word' := (L.kind token).trans word
  have related := argumentGroup? more
  cases group : Grammar.argumentGroup? us with
  | some given =>
    rw [group] at related
    generalize group' : Grammar.argumentGroup? us' = given' at related
    rcases related with inside | _
    rw [outcome_random word group, outcome_random word' group']
    have given := (inner.after (argumentGroup?_length group)).here .arguments inside
    exact given.bind fun _ _ _ _ _ items rest => .ok (L.function token _ items) rest
  | none =>
    rw [group] at related
    generalize group' : Grammar.argumentGroup? us' = given' at related
    rcases related with _ | _
    rw [outcome_range word group, outcome_range word' group']
    refine (inner.here (.expression (.chain .sum)) more).bind fun _ vs lt _ _ like rest => ?_
    have high := ((inner.after lt).mono (skipRangeWord_length_le vs)).here
      (.expression (.chain .sum)) (skipRangeWord rest)
    exact high.bind fun _ _ _ _ _ like' rest' =>
      .ok (L.function token _ (.cons like (.cons like' .nil))) rest'

theorem builtin_alike {t : Token} {us ts' : List Token} {function : Builtin}
    (word : t.kind = .builtin function) (inner : UpTo L.Alike us.length)
    (same : L.Tokens (t :: us) ts') :
    L.Reads L.expr (outcome (primary (t :: us))) (outcome (primary ts')) := by
  rcases same with _ | ⟨token, more⟩
  have word' := (L.kind token).trans word
  rcases lacks_or_cons (.symbol .leftParen) us with noCall | ⟨u, vs, rfl, mark⟩
  · rw [outcome_builtin_bare word noCall, outcome_builtin_bare word' (lacks more noCall)]
    exact (inner.here (.expression .postfixes) more).bind fun _ _ _ _ _ like rest =>
      .ok (L.function token _ (.cons like .nil)) rest
  · rcases more with _ | ⟨paren, more⟩
    rw [outcome_builtin word mark, outcome_builtin word' ((L.kind paren).trans mark)]
    have given := (inner.after (Nat.lt_succ_self _)).here .arguments more
    exact given.bind fun _ _ _ _ _ items rest => .ok (L.function token _ items) rest

theorem primary_alike (before : Before ExprGoal.rank L.Alike .primary ts) :
    L.Alike .primary ts := by
  intro ts' same
  cases ts with
  | nil =>
    rcases same with _ | _
    rw [outcome_unknown (by simp)]
    exact .error _ .nil
  | cons t us =>
  cases operand t with
  | literal found => exact literal_alike found same
  | random word => exact random_alike word before.rest same
  | builtin word => exact builtin_alike word before.rest same
  | nothing closed =>
    rcases same with _ | ⟨token, more, point⟩
    rw [outcome_unknown (by simpa using closed),
      outcome_unknown (by simpa using (opens token).trans closed)]
    exact .error _ (.cons token more point)
  | identifier kind =>
    rcases same with _ | ⟨token, more⟩
    rw [outcome_identifier kind, outcome_identifier ((L.kind token).trans kind),
      L.name token kind]
    exact .ok (L.identifier token _) more
  | compteur word =>
    rcases same with _ | ⟨token, more⟩
    rw [outcome_compteur word, outcome_compteur ((L.kind token).trans word)]
    exact .ok (L.identifier token _) more
  | group mark =>
    rcases same with _ | ⟨token, more⟩
    rw [outcome_group mark, outcome_group ((L.kind token).trans mark)]
    exact (before.rest.here (.expression .lowest) more).bind fun _ _ _ _ _ like rest =>
      (expect _ _ rest).bind fun _ _ _ _ _ _ rest' => .ok like rest'
  | list word =>
    rcases same with _ | ⟨token, more⟩
    rw [outcome_list word, outcome_list ((L.kind token).trans word)]
    exact (expect _ _ more).bind fun _ _ lt _ _ _ rest =>
      ((before.rest.after lt).here .arguments rest).bind fun _ _ _ _ _ items rest' =>
        .ok (L.list token items) rest'
  | dict word =>
    rcases same with _ | ⟨token, more⟩
    rw [outcome_dict word, outcome_dict ((L.kind token).trans word)]
    exact (expect _ _ more).bind fun _ _ lt _ _ _ rest =>
      ((before.rest.after lt).here .entries rest).bind fun _ _ _ _ _ pairs rest' =>
        .ok (L.dict token pairs) rest'
  | question word =>
    rcases same with _ | ⟨token, more⟩
    obtain ⟨asked, behind⟩ := question more
    rw [outcome_question word, outcome_question ((L.kind token).trans word), asked]
    have prompt := (before.rest.mono (question_length_le us)).here (.expression .lowest) behind
    exact prompt.bind fun _ _ _ _ _ like rest => .ok (L.function token _ (.cons like .nil)) rest

theorem arguments_alike (before : Before ExprGoal.rank L.Alike .arguments ts) :
    L.Alike .arguments ts := by
  intro ts' same
  cases ts with
  | nil =>
    rcases same with _ | _
    rw [arguments]
    exact .error _ .nil
  | cons t us =>
    have first := before.first (.expression .lowest) (by decide) same
    rcases same with _ | ⟨token, more⟩
    by_cases close : t.kind = .symbol .rightParen
    · rw [outcome_arguments_none close, outcome_arguments_none ((L.kind token).trans close)]
      exact .ok .nil more
    · rw [outcome_arguments close, outcome_arguments (by rw [L.kind token]; exact close)]
      exact first.bind fun _ _ lt _ _ like rest =>
        (before.shorter .moreArguments lt rest).bind fun _ _ _ _ _ items rest' =>
          .ok (.cons like items) rest'

theorem moreArguments_alike (before : Before ExprGoal.rank L.Alike .moreArguments ts) :
    L.Alike .moreArguments ts := by
  intro ts' same
  rcases lacks_or_cons (.symbol .comma) ts with noComma | ⟨t, us, rfl, mark⟩
  · rw [outcome_moreArguments_end noComma, outcome_moreArguments_end (lacks same noComma)]
    exact (expect _ _ same).bind fun _ _ _ _ _ _ rest => .ok .nil rest
  · rcases same with _ | ⟨token, more⟩
    rw [outcome_moreArguments mark, outcome_moreArguments ((L.kind token).trans mark)]
    exact before.rest.here .arguments more

theorem entries_alike (before : Before ExprGoal.rank L.Alike .entries ts) :
    L.Alike .entries ts := by
  intro ts' same
  cases ts with
  | nil =>
    rcases same with _ | _
    rw [entries]
    exact .error _ .nil
  | cons t us =>
    have first := before.first (.expression .lowest) (by decide) same
    rcases same with _ | ⟨token, more⟩
    by_cases close : t.kind = .symbol .rightParen
    · rw [outcome_entries_none close, outcome_entries_none ((L.kind token).trans close)]
      exact .ok .nil more
    · rw [outcome_entries close, outcome_entries (by rw [L.kind token]; exact close)]
      refine first.bind fun key _ lt _ _ like rest => ?_
      refine (expect _ _ rest).bind fun _ _ lt' _ _ _ rest' => ?_
      have behind := (before.behind lt).after lt'
      refine (behind.here (.expression .lowest) rest').bind fun value _ lt₂ _ _ like' rest₂ => ?_
      exact ((behind.after lt₂).here .moreEntries rest₂).bind fun _ _ _ _ _ pairs rest₃ =>
        .ok (.cons ⟨like, like'⟩ pairs) rest₃

theorem moreEntries_alike (before : Before ExprGoal.rank L.Alike .moreEntries ts) :
    L.Alike .moreEntries ts := by
  intro ts' same
  rcases lacks_or_cons (.symbol .comma) ts with noComma | ⟨t, us, rfl, mark⟩
  · rw [outcome_moreEntries_end noComma, outcome_moreEntries_end (lacks same noComma)]
    exact (expect _ _ same).bind fun _ _ _ _ _ _ rest => .ok .nil rest
  · rcases same with _ | ⟨token, more⟩
    rw [outcome_moreEntries mark, outcome_moreEntries ((L.kind token).trans mark)]
    exact before.rest.here .entries more

end Goals

theorem alike (L : Likeness) (goal : ExprGoal) (ts : List Token) : L.Alike goal ts := by
  refine holds_of_before ExprGoal.rank (fun goal ts before => ?_) goal ts
  cases goal with
  | expression level => exact expression_alike before
  | operations c left => exact operations_alike before
  | exponent base => exact exponent_alike before
  | accesses object => exact accesses_alike before
  | primary => exact primary_alike before
  | arguments => exact arguments_alike before
  | moreArguments => exact moreArguments_alike before
  | entries => exact entries_alike before
  | moreEntries => exact moreEntries_alike before

theorem expression (level : Level) {ts ts' : List Token} (same : L.Tokens ts ts') :
    L.Reads L.expr (outcome (expression level ts)) (outcome (Grammar.expression level ts')) :=
  L.alike (.expression level) ts same

end Likeness

end Grammar

end Miaou
