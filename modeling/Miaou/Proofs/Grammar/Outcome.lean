import Miaou.Grammar.Program

/-!
The readers without their bounds. `outcome` keeps the value and the rest of a reading, and each
reader is described by an equation between outcomes, so later proofs never unfold a reader.
-/

namespace Miaou.Grammar

/-- A value with the tokens behind it, or a failure. -/
def outcome {α : Type} {n : Nat} (r : Except Failure (Read α n)) :
    Except Failure (α × List Token) := r.map fun read => (read.value, read.rest)

theorem outcome_bind {α β : Type} {n m : Nat} {r : Except Failure (Read α n)}
    {next : Read α n → Except Failure (Read β m)}
    {then' : α × List Token → Except Failure (β × List Token)}
    (h : ∀ value rest lt, outcome (next ⟨value, rest, lt⟩) = then' (value, rest)) :
    outcome (r >>= next) = outcome r >>= then' := by
  cases r with
  | error failure => rfl
  | ok read => exact h read.value read.rest read.rest_lt

theorem outcome_last {α : Type} {n m : Nat} {r : Except Failure (Read α n)}
    {next : Read α n → Except Failure (Read α m)}
    (h : ∀ value rest lt, outcome (next ⟨value, rest, lt⟩) = .ok (value, rest)) :
    outcome (r >>= next) = outcome r := by
  rw [outcome_bind h]
  cases outcome r <;> rfl

theorem outcome_rest_lt {α : Type} {n : Nat} {r : Except Failure (Read α n)} {value : α}
    {rest : List Token} (h : outcome r = .ok (value, rest)) : rest.length < n := by
  cases r with
  | error failure => cases h
  | ok read =>
    cases h
    exact read.rest_lt

theorem bind_ok {α β ε : Type} {x : Except ε α} {f : α → Except ε β} {b : β}
    (h : (x >>= f) = .ok b) : ∃ a, x = .ok a ∧ f a = .ok b := by
  cases x with
  | error e => cases h
  | ok a => exact ⟨a, rfl, h⟩

/-- The next token, if there is one, is not of the given kind. -/
def Lacks (kind : Kind) (ts : List Token) : Prop := ∀ t ∈ ts.head?, t.kind ≠ kind

@[simp] theorem lacks_nil (kind : Kind) : Lacks kind [] := by
  intro t ht
  cases ht

@[simp] theorem lacks_cons {kind : Kind} {t : Token} {ts : List Token} :
    Lacks kind (t :: ts) ↔ t.kind ≠ kind := by
  simp [Lacks]

theorem lacks_or_cons (kind : Kind) (ts : List Token) :
    Lacks kind ts ∨ ∃ t rest, ts = t :: rest ∧ t.kind = kind := by
  cases ts with
  | nil => exact .inl (lacks_nil kind)
  | cons t rest =>
    by_cases same : t.kind = kind
    · exact .inr ⟨t, rest, rfl, same⟩
    · exact .inl (lacks_cons.mpr same)

theorem none_or_cons {α : Type} (table : Kind → Option α) (ts : List Token) :
    (∀ t ∈ ts.head?, table t.kind = none) ∨
      ∃ t rest a, ts = t :: rest ∧ table t.kind = some a := by
  cases ts with
  | nil => exact .inl (by simp)
  | cons t rest =>
    cases found : table t.kind with
    | none => exact .inl (by simpa using found)
    | some a => exact .inr ⟨t, rest, a, rfl, found⟩

theorem outcome_expect {kind : Kind} (cause : Cause) {t : Token} (h : t.kind = kind)
    (rest : List Token) : outcome (expect kind cause (t :: rest)) = .ok (t, rest) := by
  rw [expect, if_pos h]
  rfl

theorem outcome_expect_lacks {kind : Kind} (cause : Cause) {ts : List Token}
    (h : Lacks kind ts) : outcome (expect kind cause ts) = .error ⟨cause, ts⟩ := by
  cases ts with
  | nil => rfl
  | cons t rest =>
    rw [expect, if_neg (lacks_cons.mp h)]
    rfl

theorem outcome_expect_ok {kind : Kind} {cause : Cause} {ts rest : List Token} {t : Token}
    (h : outcome (expect kind cause ts) = .ok (t, rest)) : t.kind = kind ∧ ts = t :: rest := by
  cases ts with
  | nil => cases h
  | cons u us =>
    rw [expect] at h
    by_cases same : u.kind = kind
    · rw [if_pos same] at h
      cases h
      exact ⟨same, rfl⟩
    · rw [if_neg same] at h
      cases h

/-! Levels -/

theorem outcome_chain (c : Chain) (ts : List Token) :
    outcome (expression (.chain c) ts) =
      outcome (expression c.operands ts) >>= fun (left, us) => outcome (operations c left us) := by
  rw [expression]
  exact outcome_bind fun left us _ => outcome_last fun e vs _ => rfl

theorem outcome_not {t : Token} (h : t.kind = .keyword .non) (rest : List Token) :
    outcome (expression .negation (t :: rest)) =
      outcome (expression .negation rest) >>= fun (operand, us) =>
        .ok (.unary t.position .not operand, us) := by
  obtain ⟨kind, payload, pos⟩ := t
  cases h
  rw [expression]
  exact outcome_bind fun operand us _ => rfl

theorem outcome_negation {ts : List Token} (h : Lacks (.keyword .non) ts) :
    outcome (expression .negation ts) = outcome (expression (.chain .comparison) ts) := by
  rw [expression.eq_def]
  dsimp only
  split
  · exact absurd rfl (lacks_cons.mp h)
  · rfl

theorem outcome_power (ts : List Token) :
    outcome (expression .power ts) =
      outcome (expression .sign ts) >>= fun (base, us) => outcome (exponent base us) := by
  rw [expression]
  exact outcome_bind fun base us _ => outcome_last fun e vs _ => rfl

def sign? : Kind → Option UnaryOp
  | .symbol .minus => some .neg
  | .symbol .plus => some .plus
  | _ => none

theorem outcome_sign {t : Token} {op : UnaryOp} (h : sign? t.kind = some op)
    (rest : List Token) :
    outcome (expression .sign (t :: rest)) =
      outcome (expression .sign rest) >>= fun (operand, us) =>
        .ok (.unary t.position op operand, us) := by
  obtain ⟨kind, payload, pos⟩ := t
  unfold sign? at h
  split at h <;> cases h
  · rename_i same
    dsimp only at same
    subst same
    rw [expression]
    exact outcome_bind fun operand us _ => rfl
  · rename_i same
    dsimp only at same
    subst same
    rw [expression]
    exact outcome_bind fun operand us _ => rfl

theorem outcome_unsigned {ts : List Token} (h : ∀ t ∈ ts.head?, sign? t.kind = none) :
    outcome (expression .sign ts) = outcome (expression .postfixes ts) := by
  rw [expression.eq_def]
  dsimp only
  split
  · cases h _ rfl
  · cases h _ rfl
  · rfl

theorem outcome_postfixes (ts : List Token) :
    outcome (expression .postfixes ts) =
      outcome (primary ts) >>= fun (object, us) => outcome (accesses object us) := by
  rw [expression]
  exact outcome_bind fun object us _ => outcome_last fun e vs _ => rfl

/-! What follows an operand -/

theorem outcome_operations_end {c : Chain} (left : Expr) {ts : List Token}
    (h : ∀ t ∈ ts.head?, c.operator? t.kind = none) :
    outcome (operations c left ts) = .ok (left, ts) := by
  cases ts with
  | nil =>
    rw [operations]
    rfl
  | cons t rest =>
    rw [operations]
    split
    · rfl
    · rename_i op same
      rw [h t rfl] at same
      cases same

theorem outcome_operation {c : Chain} {t : Token} {op : BinaryOp}
    (h : c.operator? t.kind = some op) (left : Expr) (rest : List Token) :
    outcome (operations c left (t :: rest)) =
      outcome (expression c.operands rest) >>= fun (right, us) =>
        outcome (operations c (.binary left.position op left right) us) := by
  rw [operations]
  split
  · rename_i same
    rw [h] at same
    cases same
  · rename_i same
    rw [h] at same
    cases same
    exact outcome_bind fun right us _ => outcome_last fun e vs _ => rfl

theorem outcome_exponent {t : Token} (h : t.kind = .symbol .starStar) (base : Expr)
    (rest : List Token) :
    outcome (exponent base (t :: rest)) =
      outcome (expression .power rest) >>= fun (e, us) =>
        .ok (.binary base.position .pow base e, us) := by
  obtain ⟨kind, payload, pos⟩ := t
  cases h
  rw [exponent]
  exact outcome_bind fun e us _ => rfl

theorem outcome_exponent_end (base : Expr) {ts : List Token} (h : Lacks (.symbol .starStar) ts) :
    outcome (exponent base ts) = .ok (base, ts) := by
  rw [exponent.eq_def]
  split
  · exact absurd rfl (lacks_cons.mp h)
  · rfl

/-- What comes behind an operand: a group, an item or an attribute, if anything. -/
inductive Access : List Token → Prop where
  | group {t : Token} (rest : List Token) (mark : t.kind = .symbol .leftParen) : Access (t :: rest)
  | item {t : Token} (rest : List Token) (mark : t.kind = .symbol .leftBracket) :
      Access (t :: rest)
  | attribute {t u : Token} (rest : List Token) (mark : t.kind = .symbol .dot)
      (name : namesAttribute u.kind = true) : Access (t :: u :: rest)
  | unnamed {t : Token} {rest : List Token} (mark : t.kind = .symbol .dot)
      (name : ∀ u ∈ rest.head?, namesAttribute u.kind = false) : Access (t :: rest)
  | nothing {ts : List Token} (noCall : Lacks (.symbol .leftParen) ts)
      (noItem : Lacks (.symbol .leftBracket) ts) (noPoint : Lacks (.symbol .dot) ts) : Access ts

theorem access (ts : List Token) : Access ts := by
  rcases lacks_or_cons (.symbol .leftParen) ts with noCall | ⟨t, rest, rfl, mark⟩
  · rcases lacks_or_cons (.symbol .leftBracket) ts with noItem | ⟨t, rest, rfl, mark⟩
    · rcases lacks_or_cons (.symbol .dot) ts with noPoint | ⟨t, rest, rfl, mark⟩
      · exact .nothing noCall noItem noPoint
      · cases rest with
        | nil => exact .unnamed mark (by simp)
        | cons u us =>
          cases name : namesAttribute u.kind with
          | true => exact .attribute us mark name
          | false => exact .unnamed mark (by simpa using name)
    · exact .item rest mark
  · exact .group rest mark

theorem outcome_call {t : Token} (h : t.kind = .symbol .leftParen) {object : Expr}
    {function : String} (path : object.path? = some function) (rest : List Token) :
    outcome (accesses object (t :: rest)) =
      outcome (arguments rest) >>= fun (given, us) =>
        outcome (accesses (.call object.position function given) us) := by
  obtain ⟨kind, payload, pos⟩ := t
  cases h
  rw [accesses]
  split
  · rename_i same
    rw [path] at same
    cases same
  · rename_i same
    rw [path] at same
    cases same
    exact outcome_bind fun given us _ => outcome_last fun e vs _ => rfl

theorem outcome_uncalled {t : Token} (h : t.kind = .symbol .leftParen) {object : Expr}
    (path : object.path? = none) (rest : List Token) :
    outcome (accesses object (t :: rest)) = .error ⟨.unknownInstruction, t :: rest⟩ := by
  obtain ⟨kind, payload, pos⟩ := t
  cases h
  rw [accesses]
  split
  · rfl
  · rename_i same
    rw [path] at same
    cases same

theorem outcome_item {t : Token} (h : t.kind = .symbol .leftBracket) (object : Expr)
    (rest : List Token) :
    outcome (accesses object (t :: rest)) =
      outcome (expression .lowest rest) >>= fun (index, us) =>
        outcome (expect (.symbol .rightBracket) (.missingDelimiter .rightBracket) us) >>=
          fun (_, vs) => outcome (accesses (.item object.position object index) vs) := by
  obtain ⟨kind, payload, pos⟩ := t
  cases h
  rw [accesses]
  exact outcome_bind fun index us _ => outcome_bind fun _ vs _ => outcome_last fun e ws _ => rfl

theorem outcome_attribute {t u : Token} (h : t.kind = .symbol .dot)
    (name : namesAttribute u.kind = true) (object : Expr) (rest : List Token) :
    outcome (accesses object (t :: u :: rest)) =
      outcome (accesses (.attribute object.position object u.lexeme) rest) := by
  obtain ⟨kind, payload, pos⟩ := t
  cases h
  rw [accesses, if_pos name]
  exact outcome_last fun e vs _ => rfl

theorem outcome_unnamed {t : Token} (h : t.kind = .symbol .dot) (object : Expr)
    {rest : List Token} (name : ∀ u ∈ rest.head?, namesAttribute u.kind = false) :
    outcome (accesses object (t :: rest)) = .error ⟨.missingElement .attributeName, rest⟩ := by
  obtain ⟨kind, payload, pos⟩ := t
  cases h
  cases rest with
  | nil =>
    rw [accesses]
    rfl
  | cons u us =>
    rw [accesses, if_neg (by simp [name u rfl])]
    rfl

theorem outcome_accesses_end (object : Expr) {ts : List Token}
    (call : Lacks (.symbol .leftParen) ts) (item : Lacks (.symbol .leftBracket) ts)
    (point : Lacks (.symbol .dot) ts) :
    outcome (accesses object ts) = .ok (object, ts) := by
  rw [accesses.eq_def]
  split
  · exact absurd rfl (lacks_cons.mp call)
  · exact absurd rfl (lacks_cons.mp item)
  · exact absurd rfl (lacks_cons.mp point)
  · rfl

/-! Operands -/

def literal? : Kind → Payload → Option Literal
  | .number, .int n => some (.int n)
  | .number, .float x => some (.float x)
  | .string, .str s => some (.str s)
  | .boolean, .bool b => some (.bool b)
  | _, _ => none

theorem outcome_literal {t : Token} {value : Literal}
    (h : literal? t.kind t.payload = some value) (rest : List Token) :
    outcome (primary (t :: rest)) = .ok (.literal t.position value, rest) := by
  obtain ⟨kind, payload, pos⟩ := t
  unfold literal? at h
  split at h <;> cases h
  all_goals
    rename_i kind payload
    dsimp only at kind payload
    subst kind
    subst payload
    rw [primary]
    rfl

theorem outcome_identifier {t : Token} (h : t.kind = .identifier) (rest : List Token) :
    outcome (primary (t :: rest)) = .ok (.identifier t.position t.lexeme, rest) := by
  obtain ⟨kind, payload, pos⟩ := t
  cases h
  rw [primary]
  rfl

theorem outcome_compteur {t : Token} (h : t.kind = .keyword .compteur) (rest : List Token) :
    outcome (primary (t :: rest)) = .ok (.identifier t.position "compteur", rest) := by
  obtain ⟨kind, payload, pos⟩ := t
  cases h
  rw [primary]
  rfl

theorem outcome_group {t : Token} (h : t.kind = .symbol .leftParen) (rest : List Token) :
    outcome (primary (t :: rest)) =
      outcome (expression .lowest rest) >>= fun (e, us) =>
        outcome (expect (.symbol .rightParen) (.missingDelimiter .rightParen) us) >>=
          fun (_, vs) => .ok (e, vs) := by
  obtain ⟨kind, payload, pos⟩ := t
  cases h
  rw [primary]
  exact outcome_bind fun e us _ => outcome_bind fun _ vs _ => rfl

theorem outcome_list {t : Token} (h : t.kind = .keyword .liste) (rest : List Token) :
    outcome (primary (t :: rest)) =
      outcome (expect (.symbol .leftParen) (.missingDelimiter .leftParen) rest) >>=
        fun (_, us) => outcome (arguments us) >>= fun (items, vs) =>
          .ok (.list t.position items, vs) := by
  obtain ⟨kind, payload, pos⟩ := t
  cases h
  rw [primary]
  exact outcome_bind fun _ us _ => outcome_bind fun items vs _ => rfl

theorem outcome_dict {t : Token} (h : t.kind = .keyword .dictionnaire) (rest : List Token) :
    outcome (primary (t :: rest)) =
      outcome (expect (.symbol .leftParen) (.missingDelimiter .leftParen) rest) >>=
        fun (_, us) => outcome (entries us) >>= fun (pairs, vs) =>
          .ok (.dict t.position pairs, vs) := by
  obtain ⟨kind, payload, pos⟩ := t
  cases h
  rw [primary]
  exact outcome_bind fun _ us _ => outcome_bind fun pairs vs _ => rfl

theorem outcome_question {t : Token} (h : t.kind = .keyword .demander) (rest : List Token) :
    outcome (primary (t :: rest)) =
      outcome (expression .lowest (question rest).2) >>= fun (prompt, us) =>
        .ok (.call t.position (question rest).1 [prompt], us) := by
  obtain ⟨kind, payload, pos⟩ := t
  cases h
  rw [primary]
  exact outcome_bind fun prompt us _ => rfl

theorem outcome_random {t : Token} (h : t.kind = .keyword .aleatoire) {rest inner : List Token}
    (group : argumentGroup? rest = some inner) :
    outcome (primary (t :: rest)) =
      outcome (arguments inner) >>= fun (given, us) =>
        .ok (.call t.position "aleatoire" given, us) := by
  obtain ⟨kind, payload, pos⟩ := t
  cases h
  rw [primary]
  dsimp only
  split
  · rename_i same
    rw [group] at same
    cases same
    exact outcome_bind fun given us _ => rfl
  · rename_i same
    rw [group] at same
    cases same

theorem outcome_range {t : Token} (h : t.kind = .keyword .aleatoire) {rest : List Token}
    (group : argumentGroup? rest = none) :
    outcome (primary (t :: rest)) =
      outcome (expression (.chain .sum) rest) >>= fun (low, us) =>
        outcome (expression (.chain .sum) (skipRangeWord us)) >>= fun (high, vs) =>
          .ok (.call t.position "aleatoire" [low, high], vs) := by
  obtain ⟨kind, payload, pos⟩ := t
  cases h
  rw [primary]
  dsimp only
  split
  · rename_i same
    rw [group] at same
    cases same
  · exact outcome_bind fun low us _ => outcome_bind fun high vs _ => rfl

theorem outcome_builtin {t u : Token} {function : Builtin} (h : t.kind = .builtin function)
    (call : u.kind = .symbol .leftParen) (inner : List Token) :
    outcome (primary (t :: u :: inner)) =
      outcome (arguments inner) >>= fun (given, us) =>
        .ok (.call t.position function.function given, us) := by
  obtain ⟨kind, payload, pos⟩ := t
  obtain ⟨kind', payload', pos'⟩ := u
  cases h
  cases call
  rw [primary]
  exact outcome_bind fun given us _ => rfl

theorem outcome_builtin_bare {t : Token} {function : Builtin} (h : t.kind = .builtin function)
    {rest : List Token} (bare : Lacks (.symbol .leftParen) rest) :
    outcome (primary (t :: rest)) =
      outcome (expression .postfixes rest) >>= fun (operand, us) =>
        .ok (.call t.position function.function [operand], us) := by
  obtain ⟨kind, payload, pos⟩ := t
  cases h
  rw [primary]
  dsimp only
  split
  · exact absurd rfl (lacks_cons.mp bare)
  · exact outcome_bind fun operand us _ => rfl

def opens (t : Token) : Bool :=
  match t.kind with
  | .identifier | .keyword .compteur | .symbol .leftParen | .keyword .liste
  | .keyword .dictionnaire | .keyword .demander | .keyword .aleatoire | .builtin _ => true
  | kind => (literal? kind t.payload).isSome

theorem sign?_of_opens {t : Token} (h : opens t = true) : sign? t.kind = none := by
  unfold sign?
  split
  · rename_i same
    simp [opens, same, literal?] at h
  · rename_i same
    simp [opens, same, literal?] at h
  · rfl

theorem kind_ne_non {t : Token} (h : opens t = true) : t.kind ≠ .keyword .non := by
  intro same
  simp [opens, same, literal?] at h

/-- What operand a token begins, if any. -/
inductive Operand (t : Token) : Prop where
  | literal {value : Literal} (found : literal? t.kind t.payload = some value)
  | identifier (kind : t.kind = .identifier)
  | compteur (word : t.kind = .keyword .compteur)
  | group (mark : t.kind = .symbol .leftParen)
  | list (word : t.kind = .keyword .liste)
  | dict (word : t.kind = .keyword .dictionnaire)
  | question (word : t.kind = .keyword .demander)
  | random (word : t.kind = .keyword .aleatoire)
  | builtin {function : Builtin} (word : t.kind = .builtin function)
  | nothing (closed : opens t = false)

theorem operand (t : Token) : Operand t := by
  cases closed : opens t with
  | false => exact .nothing closed
  | true =>
    unfold opens at closed
    split at closed
    · exact .identifier ‹_›
    · exact .compteur ‹_›
    · exact .group ‹_›
    · exact .list ‹_›
    · exact .dict ‹_›
    · exact .question ‹_›
    · exact .random ‹_›
    · exact .builtin ‹_›
    · obtain ⟨value, found⟩ := Option.isSome_iff_exists.mp closed
      exact .literal found

theorem outcome_unknown {ts : List Token} (h : ∀ t ∈ ts.head?, opens t = false) :
    outcome (primary ts) = .error ⟨.unknownInstruction, ts⟩ := by
  cases ts with
  | nil =>
    rw [primary]
    rfl
  | cons t rest =>
    have none := h t rfl
    obtain ⟨kind, payload, pos⟩ := t
    rw [primary]
    split
    all_goals try rfl
    all_goals simp_all [opens, literal?]

/-! Groups -/

theorem outcome_arguments_none {t : Token} (h : t.kind = .symbol .rightParen)
    (rest : List Token) : outcome (arguments (t :: rest)) = .ok ([], rest) := by
  rw [arguments, if_pos h]
  rfl

theorem outcome_arguments {t : Token} (h : t.kind ≠ .symbol .rightParen) (rest : List Token) :
    outcome (arguments (t :: rest)) =
      outcome (expression .lowest (t :: rest)) >>= fun (e, us) =>
        outcome (moreArguments us) >>= fun (es, vs) => .ok (e :: es, vs) := by
  rw [arguments, if_neg h]
  exact outcome_bind fun e us _ => outcome_bind fun es vs _ => rfl

theorem outcome_moreArguments {t : Token} (h : t.kind = .symbol .comma) (rest : List Token) :
    outcome (moreArguments (t :: rest)) = outcome (arguments rest) := by
  obtain ⟨kind, payload, pos⟩ := t
  cases h
  rw [moreArguments]
  exact outcome_last fun es us _ => rfl

theorem outcome_moreArguments_end {ts : List Token} (h : Lacks (.symbol .comma) ts) :
    outcome (moreArguments ts) =
      outcome (expect (.symbol .rightParen) (.missingDelimiter .rightParen) ts) >>=
        fun (_, us) => .ok ([], us) := by
  rw [moreArguments.eq_def]
  split
  · exact absurd rfl (lacks_cons.mp h)
  · exact outcome_bind fun _ us _ => rfl

theorem outcome_entries_none {t : Token} (h : t.kind = .symbol .rightParen)
    (rest : List Token) : outcome (entries (t :: rest)) = .ok ([], rest) := by
  rw [entries, if_pos h]
  rfl

theorem outcome_entries {t : Token} (h : t.kind ≠ .symbol .rightParen) (rest : List Token) :
    outcome (entries (t :: rest)) =
      outcome (expression .lowest (t :: rest)) >>= fun (key, us) =>
        outcome (expectColon us) >>= fun (_, vs) =>
          outcome (expression .lowest vs) >>= fun (value, ws) =>
            outcome (moreEntries ws) >>= fun (more, xs) => .ok ((key, value) :: more, xs) := by
  rw [entries, if_neg h]
  exact outcome_bind fun key us _ => outcome_bind fun _ vs _ => outcome_bind fun value ws _ =>
    outcome_bind fun more xs _ => rfl

theorem outcome_moreEntries {t : Token} (h : t.kind = .symbol .comma) (rest : List Token) :
    outcome (moreEntries (t :: rest)) = outcome (entries rest) := by
  obtain ⟨kind, payload, pos⟩ := t
  cases h
  rw [moreEntries]
  exact outcome_last fun es us _ => rfl

theorem outcome_moreEntries_end {ts : List Token} (h : Lacks (.symbol .comma) ts) :
    outcome (moreEntries ts) =
      outcome (expect (.symbol .rightParen) (.missingDelimiter .rightParen) ts) >>=
        fun (_, us) => .ok ([], us) := by
  rw [moreEntries.eq_def]
  split
  · exact absurd rfl (lacks_cons.mp h)
  · exact outcome_bind fun _ us _ => rfl

end Miaou.Grammar
