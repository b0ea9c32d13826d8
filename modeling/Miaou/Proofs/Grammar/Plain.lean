import Miaou.Proofs.Grammar.Completion
import Miaou.Proofs.Grammar.Nesting

/-!
Statements that are nothing but an expression. Whatever such a line begins with, its statement is
the whole expression, with one exception: behind a name and an opening bracket only the operand
with its calls, items and attributes is taken, and an operator behind it is left for the next
statement.
-/

namespace Miaou.Grammar

def Phrase.Grows : Phrase → Prop
  | .operations _ object e | .exponent object e | .accesses object e =>
    object.text.length ≤ e.text.length
  | _ => True

theorem length_text_call {object : Expr} {function : String} (path : object.path? = some function)
    (pos : Position) (given : List Expr) :
    object.text.length < (Expr.call pos function given).text.length := by
  rw [Expr.text_of_path path, Expr.text]
  simp only [String.length_append]
  exact Nat.lt_of_lt_of_le (Nat.lt_add_of_pos_right (by decide : 0 < "(".length))
    (Nat.le_trans (Nat.le_add_right _ _) (Nat.le_add_right _ _))

theorem Derives.grows {phrase : Phrase} {ts rest : List Token} (h : Derives phrase ts rest) :
    phrase.Grows := by
  induction h with
  | operationsEnd other | exponentEnd other | accessesEnd noCall noItem noPoint =>
    exact Nat.le_refl _
  | operation mark operand more ih ih' =>
    refine Nat.le_trans ?_ ih'
    simp only [Expr.text, String.length_append]
    omega
  | exponent mark operand ih =>
    simp only [Phrase.Grows, Expr.text, String.length_append]
    omega
  | call mark path group more ih ih' =>
    exact Nat.le_trans (length_text_call path _ _).le ih'
  | item mark inner close more ih ih' =>
    refine Nat.le_trans ?_ ih'
    simp only [Expr.text, String.length_append]
    omega
  | «attribute» mark name more ih =>
    refine Nat.le_trans ?_ ih
    simp only [Expr.text, String.length_append]
    omega
  | _ => trivial

/-- An expression that begins with an operand begins with all that is called, indexed or named on
it, stands where that stands, is printed no shorter, and is nothing else if no operator comes
behind. -/
theorem Derives.leading {t : Token} (begins : opens t = true) {ts rest : List Token} {e : Expr} :
    {level : Level} → Derives (.expression level e) (t :: ts) rest →
      ∃ first us, Derives (.expression .postfixes first) (t :: ts) us ∧
        e.position = first.position ∧ first.text.length ≤ e.text.length ∧
          (Halts level.rank us → e = first ∧ rest = us)
  | .chain c, h => by
    cases h with
    | chain operand more =>
      obtain ⟨first, us, chain, here, size, alone⟩ := operand.leading begins
      refine ⟨first, us, chain, more.anchored.trans here, size.trans more.grows, fun halts => ?_⟩
      obtain ⟨rfl, rfl⟩ := alone (halts.mono (Level.rank_operands c).le)
      cases more with
      | operationsEnd => exact ⟨rfl, rfl⟩
      | operation mark => exact absurd (halts.operator? _ rfl) (by simp [mark])
  | .negation, h => by
    cases h with
    | not word => exact absurd word (kind_ne_non begins)
    | affirmed _ inner =>
      obtain ⟨first, us, chain, here, size, alone⟩ := inner.leading begins
      exact ⟨first, us, chain, here, size, fun halts => alone (halts.mono (by decide))⟩
  | .power, h => by
    cases h with
    | power operand more =>
      obtain ⟨first, us, chain, here, size, alone⟩ := operand.leading begins
      refine ⟨first, us, chain, more.anchored.trans here, size.trans more.grows, fun halts => ?_⟩
      obtain ⟨rfl, rfl⟩ := alone (halts.mono (by decide))
      cases more with
      | exponentEnd => exact ⟨rfl, rfl⟩
      | exponent mark =>
        have other : Lacks (.symbol .starStar) _ := halts.lacks rfl (by decide)
        exact absurd mark (lacks_cons.mp other)
  | .sign, h => by
    cases h with
    | sign mark => exact absurd (sign?_of_opens begins) (by simp [mark])
    | unsigned _ inner =>
      obtain ⟨first, us, chain, here, size, alone⟩ := inner.leading begins
      exact ⟨first, us, chain, here, size, fun halts => alone (halts.mono (by decide))⟩
  | .postfixes, h => ⟨e, rest, h, rfl, Nat.le_refl _, fun _ => ⟨rfl, rfl⟩⟩
termination_by level => level.rank
decreasing_by
  all_goals first | exact Level.rank_operands _ | decide

theorem ok_of_rest {α : Type} {r : Except Failure (α × List Token)} {us : List Token}
    (h : r.map Prod.snd = .ok us) : ∃ value, r = .ok (value, us) := by
  cases r with
  | error failure => cases h
  | ok found =>
    cases h
    exact ⟨found.1, rfl⟩

theorem Derives.position_name {t : Token} (name : t.kind = .identifier) {ts us : List Token}
    {first : Expr} (h : Derives (.expression .postfixes first) (t :: ts) us) :
    first.position = t.position := by
  cases h with
  | postfixes operand more =>
    have read := operand.reads
    rw [Phrase.Reads, outcome_identifier name] at read
    cases read
    exact more.anchored

def beginsItem : List Token → Bool
  | t :: u :: _ => t.kind = .identifier && u.kind = .symbol .leftBracket
  | _ => false

theorem leads_of_inExpression {kind : Kind} (h : inExpression kind = true)
    (other : kind ≠ .identifier) : leads kind = false := by
  unfold inExpression at h
  split at h <;> first | rfl | exact absurd rfl other | cases h

theorem misplaced?_of_inExpression {kind : Kind} (h : inExpression kind = true) :
    misplaced? kind = none := by
  unfold inExpression at h
  split at h <;> first | rfl | cases h

section Line

variable {nl : Token} {rest : List Token} {e : Expr}

theorem statement_unnamed {t : Token} {ts : List Token} (other : t.kind ≠ .identifier)
    (whole : outcome (expression .lowest (t :: (ts ++ nl :: rest))) = .ok (e, nl :: rest)) :
    outcome (statement (t :: (ts ++ nl :: rest))) =
      .ok (.expression e.position e, nl :: rest) := by
  obtain ⟨taken, same, kinds, u, mem, -⟩ := expression_anchored whole
  cases taken with
  | nil => cases mem
  | cons v vs =>
    obtain ⟨rfl, -⟩ := List.cons.inj same
    have inside := kinds t List.mem_cons_self
    rw [outcome_plain (leads_of_inExpression inside other) (misplaced?_of_inExpression inside),
      bind_of_ok whole]

theorem statement_named {t : Token} {ts : List Token} (name : t.kind = .identifier)
    (assign : Lacks (.symbol .assign) (ts ++ nl :: rest))
    (item : Lacks (.symbol .leftBracket) (ts ++ nl :: rest))
    (whole : outcome (expression .lowest (t :: (ts ++ nl :: rest))) = .ok (e, nl :: rest)) :
    outcome (statement (t :: (ts ++ nl :: rest))) =
      .ok (.expression e.position e, nl :: rest) := by
  obtain ⟨first, us, chain, here, -, -⟩ :=
    (derives_expression.mpr whole).leading (by simp [opens, name])
  rw [outcome_namedStatement name, outcome_named t assign item, bind_of_ok whole, here,
    chain.position_name name]

theorem outcome_postfixes_assign {t u : Token} (name : t.kind = .identifier)
    (mark : u.kind = .symbol .assign) (ts : List Token) :
    outcome (expression .postfixes (t :: u :: ts)) =
      .ok (.identifier t.position t.lexeme, u :: ts) := by
  rw [outcome_postfixes, bind_of_ok (outcome_identifier name _)]
  exact outcome_accesses_end _ (lacks_of_kind mark (by decide)) (lacks_of_kind mark (by decide))
    (lacks_of_kind mark (by decide))

theorem statement_item {t u : Token} {ts us : List Token} {first : Expr}
    (name : t.kind = .identifier) (bracket : u.kind = .symbol .leftBracket)
    (chain : Derives (.expression .postfixes first) (t :: u :: ts) us)
    (unassigned : Lacks (.symbol .assign) us) :
    outcome (statement (t :: u :: ts)) = .ok (.expression first.position first, us) := by
  rw [outcome_namedStatement name, outcome_assignItem t bracket, bind_of_ok chain.reads,
    chain.position_name name]
  exact outcome_itemAssignment_end _ _ unassigned

/-- A line that is one expression, with no equals sign behind the operand it begins with, is a
statement of the whole expression unless it begins with an item that is only part of it; then the
statement is this item, with what is called, indexed or named on it, and leaves the rest. -/
theorem statement_of_expression {ts : List Token} (line : nl.kind = .layout .newline)
    (whole : outcome (expression .lowest (ts ++ nl :: rest)) = .ok (e, nl :: rest))
    (unassigned : ∀ first us, outcome (expression .postfixes (ts ++ nl :: rest)) =
      .ok (first, us) → Lacks (.symbol .assign) us) :
    (outcome (statement (ts ++ nl :: rest)) = .ok (.expression e.position e, nl :: rest) ↔
      (beginsItem ts = true →
        ∃ first, outcome (expression .postfixes (ts ++ nl :: rest)) = .ok (first, nl :: rest))) ∧
      (beginsItem ts = true →
        ∃ first us, outcome (expression .postfixes (ts ++ nl :: rest)) = .ok (first, us) ∧
          outcome (statement (ts ++ nl :: rest)) = .ok (.expression first.position first, us)) := by
  cases ts with
  | nil => exact absurd (outcome_rest_lt whole) (Nat.lt_irrefl _)
  | cons t ts =>
    by_cases name : t.kind = .identifier
    case neg =>
      have plain : beginsItem (t :: ts) ≠ true := by
        cases ts <;> simp [beginsItem, name]
      exact ⟨iff_of_true (statement_unnamed name whole) fun item => absurd item plain,
        fun item => absurd item plain⟩
    case pos =>
      obtain ⟨first, us, chain, here, -, alone⟩ :=
        (derives_expression.mpr whole).leading (by simp [opens, name])
      cases item : beginsItem (t :: ts) with
      | true =>
        cases ts with
        | nil => cases item
        | cons u vs =>
          have bracket : u.kind = .symbol .leftBracket := by simpa [beginsItem, name] using item
          have taken := statement_item name bracket chain (unassigned first us chain.reads)
          refine ⟨⟨fun complete _ => ?_, fun complete => ?_⟩,
            fun _ => ⟨first, us, chain.reads, taken⟩⟩
          · obtain ⟨-, rfl⟩ := Prod.mk.inj (Except.ok.inj (taken.symm.trans complete))
            exact ⟨first, chain.reads⟩
          · obtain ⟨first', all⟩ := complete rfl
            obtain ⟨-, rfl⟩ := Prod.mk.inj (Except.ok.inj (chain.reads.symm.trans all))
            obtain ⟨rfl, -⟩ := alone (halts_of_none (by rw [line]; rfl) _ _)
            exact taken
      | false =>
        have assign : Lacks (.symbol .assign) (ts ++ nl :: rest) := by
          cases ts with
          | nil => exact lacks_of_kind line (by decide)
          | cons u vs =>
            refine lacks_cons.mpr fun mark => ?_
            exact lacks_cons.mp (unassigned _ _ (outcome_postfixes_assign name mark _)) mark
        have bracket : Lacks (.symbol .leftBracket) (ts ++ nl :: rest) := by
          cases ts with
          | nil => exact lacks_of_kind line (by decide)
          | cons u vs => simpa [beginsItem, name] using item
        have plain : false ≠ true := Bool.false_ne_true
        exact ⟨iff_of_true (statement_named name assign bracket whole) fun begins =>
          absurd begins plain, fun begins => absurd begins plain⟩

end Line

theorem statement_of_expression_sum :
    ∃ ts p q e first us, tokenize "x[0] + 1\n" = .ok (ts ++ [.newline p, .eof q]) ∧
      outcome (expression .lowest (ts ++ [.newline p])) = .ok (e, [.newline p]) ∧
      outcome (expression .postfixes (ts ++ [.newline p])) = .ok (first, us) ∧
      outcome (statement (ts ++ [.newline p])) = .ok (.expression first.position first, us) ∧
      us.map Token.kind = [.symbol .plus, .number, .layout .newline] := by
  let item : List Token := [⟨.identifier, .str "x", ⟨1, 1⟩⟩,
    ⟨.symbol .leftBracket, .str "[", ⟨1, 2⟩⟩, ⟨.number, .int 0, ⟨1, 3⟩⟩,
    ⟨.symbol .rightBracket, .str "]", ⟨1, 4⟩⟩]
  let more : List Token := [⟨.symbol .plus, .str "+", ⟨1, 6⟩⟩, ⟨.number, .int 1, ⟨1, 8⟩⟩]
  have read : tokenize "x[0] + 1\n" =
      .ok (item ++ more ++ [.newline ⟨1, 9⟩, .eof ⟨2, 1⟩]) := by decide +kernel
  obtain ⟨e, whole⟩ := ok_of_rest
    (by decide +kernel : (outcome (expression .lowest (item ++ more ++ [.newline ⟨1, 9⟩]))).map
      Prod.snd = .ok [.newline ⟨1, 9⟩])
  have chain : (outcome (expression .postfixes (item ++ more ++ [.newline ⟨1, 9⟩]))).map
      Prod.snd = .ok (more ++ [.newline ⟨1, 9⟩]) := by decide +kernel
  have unassigned : ∀ first us,
      outcome (expression .postfixes (item ++ more ++ [.newline ⟨1, 9⟩])) = .ok (first, us) →
        Lacks (.symbol .assign) us ∧ us = more ++ [.newline ⟨1, 9⟩] := by
    intro first us found
    rw [found] at chain
    cases chain
    exact ⟨lacks_of_kind rfl (by decide), rfl⟩
  have line : (Token.newline ⟨1, 9⟩).kind = .layout .newline := rfl
  obtain ⟨first, us, found, taken⟩ := (statement_of_expression line whole
    fun first us found => (unassigned first us found).1).2 rfl
  refine ⟨_, _, _, e, first, us, read, whole, found, taken, ?_⟩
  rw [(unassigned first us found).2]
  rfl

theorem statement_of_expression_comparison :
    ∃ ts p q e, tokenize "x[0] == y\n" = .ok (ts ++ [.newline p, .eof q]) ∧
      outcome (expression .lowest (ts ++ [.newline p])) = .ok (e, [.newline p]) ∧
      (∀ first us, outcome (expression .postfixes (ts ++ [.newline p])) = .ok (first, us) →
        Lacks (.symbol .assign) us) ∧
      ∀ pos, outcome (statement (ts ++ [.newline p])) ≠ .ok (.expression pos e, [.newline p]) := by
  let item : List Token := [⟨.identifier, .str "x", ⟨1, 1⟩⟩,
    ⟨.symbol .leftBracket, .str "[", ⟨1, 2⟩⟩, ⟨.number, .int 0, ⟨1, 3⟩⟩,
    ⟨.symbol .rightBracket, .str "]", ⟨1, 4⟩⟩]
  let more : List Token := [⟨.symbol .equal, .str "==", ⟨1, 6⟩⟩, ⟨.identifier, .str "y", ⟨1, 9⟩⟩]
  have read : tokenize "x[0] == y\n" =
      .ok (item ++ more ++ [.newline ⟨1, 10⟩, .eof ⟨2, 1⟩]) := by decide +kernel
  obtain ⟨e, whole⟩ := ok_of_rest
    (by decide +kernel : (outcome (expression .lowest (item ++ more ++ [.newline ⟨1, 10⟩]))).map
      Prod.snd = .ok [.newline ⟨1, 10⟩])
  have chain : (outcome (expression .postfixes (item ++ more ++ [.newline ⟨1, 10⟩]))).map
      Prod.snd = .ok (more ++ [.newline ⟨1, 10⟩]) := by decide +kernel
  have taken : (outcome (statement (item ++ more ++ [.newline ⟨1, 10⟩]))).map Prod.snd =
      .ok (more ++ [.newline ⟨1, 10⟩]) := by decide +kernel
  refine ⟨_, _, _, e, read, whole, ?_, ?_⟩
  · intro first us found
    rw [found] at chain
    cases chain
    exact lacks_of_kind rfl (by decide)
  · intro pos complete
    rw [complete] at taken
    cases taken

end Miaou.Grammar
