import Miaou.Proofs.Grammar.Standing

/-!
What an equals sign does behind an item. The statement is an assignment to the item if the item is
indexed right behind its name. Behind any other item the sign compares.
-/

namespace Miaou

/-- `e` is `d`, or begins with it: what is operated on or looked into first, at any depth. -/
def Expr.Begins (d e : Expr) : Prop :=
  Relation.ReflTransGen (fun d e : Expr => e.leading? = some d) d e

namespace Grammar

def Phrase.Prolongs : Phrase → Prop
  | .operations _ object e => object.Begins e
  | _ => True

theorem Derives.prolongs {phrase : Phrase} {ts rest : List Token} (h : Derives phrase ts rest) :
    phrase.Prolongs := by
  induction h with
  | operationsEnd other => exact .refl
  | operation mark operand more ih ih' => exact .head rfl ih'
  | _ => trivial

theorem halts_assign {u : Token} (mark : u.kind = .symbol .assign) (vs : List Token) :
    Halts (Level.chain .sum).rank (u :: vs) := by
  rw [halts_cons, mark]
  rintro r ⟨⟩
  decide

theorem Derives.compared {t u : Token} {ts us vs : List Token} {object e : Expr}
    (begins : opens t = true) (h : Derives (.expression .lowest e) (t :: ts) us)
    (operand : Derives (.expression .postfixes object) (t :: ts) (u :: vs))
    (mark : u.kind = .symbol .assign) :
    ∃ right ws, Derives (.expression (.chain .sum) right) vs ws ∧
      (Expr.binary object.position .eq object right).Begins e := by
  obtain ⟨e₁, ts₁, first₁, more₁⟩ : ∃ e₁ ts₁,
      Derives (.expression (.chain .conjunction) e₁) (t :: ts) ts₁ ∧
        Derives (.operations .disjunction e₁ e) ts₁ us := by
    cases h with
    | chain first more => exact ⟨_, _, first, more⟩
  obtain ⟨e₂, ts₂, first₂, more₂⟩ : ∃ e₂ ts₂, Derives (.expression .negation e₂) (t :: ts) ts₂ ∧
      Derives (.operations .conjunction e₂ e₁) ts₂ ts₁ := by
    cases first₁ with
    | chain first more => exact ⟨_, _, first, more⟩
  obtain ⟨left, ts₃, first₃, more₃⟩ : ∃ left ts₃,
      Derives (.expression (.chain .sum) left) (t :: ts) ts₃ ∧
        Derives (.operations .comparison left e₂) ts₃ ts₂ := by
    cases first₂ with
    | not word => exact absurd word (kind_ne_non begins)
    | affirmed other inner =>
      cases inner with
      | chain first more => exact ⟨_, _, first, more⟩
  obtain ⟨object', us', chain, -, -, alone⟩ := first₃.leading begins
  cases (chain.reads : outcome _ = _).symm.trans operand.reads
  obtain ⟨rfl, rfl⟩ := alone (halts_assign mark vs)
  cases more₃ with
  | operationsEnd other => exact absurd (other u rfl) (by simp [mark, Chain.operator?])
  | operation found right more₄ =>
    rw [mark] at found
    cases found
    refine ⟨_, _, right, ?_⟩
    exact more₄.prolongs.trans (more₂.prolongs.trans more₁.prolongs)

theorem Derives.comparison {u : Token} {ts vs ws : List Token} {object right : Expr}
    (operand : Derives (.expression .postfixes object) ts (u :: vs))
    (mark : u.kind = .symbol .assign) (sum : Derives (.expression (.chain .sum) right) vs ws)
    (halts : Halts 9 ws) :
    Derives (.expression .lowest (.binary object.position .eq object right)) ts ws := by
  have left : Derives (.expression (.chain .sum) object) ts (u :: vs) :=
    operand.looser (by decide) (halts_assign mark vs)
  have whole : Derives (.expression (.chain .comparison)
      (.binary object.position .eq object right)) ts ws :=
    .chain left (.operation (by rw [mark]; rfl) sum
      (.operationsEnd (halts.mono (Level.rank_le _)).operator?))
  exact whole.looser (by decide) halts

section Statement

variable {name b u : Token} {ts vs : List Token}

theorem statement_indexed {place : Position} {object index : Expr}
    (kind : name.kind = .identifier) (bracket : b.kind = .symbol .leftBracket)
    (mark : u.kind = .symbol .assign)
    (target : outcome (expression .postfixes (name :: b :: ts)) =
      .ok (.item place object index, u :: vs)) :
    outcome (statement (name :: b :: ts)) =
      outcome (expression .lowest vs) >>= fun (value, us) =>
        .ok (.assignIndex name.position object index value, us) := by
  rw [outcome_namedStatement kind, outcome_assignItem name bracket, bind_of_ok target]
  exact outcome_itemAssignment mark ..

theorem statement_called (kind : name.kind = .identifier) (bracket : b.kind ≠ .symbol .leftBracket)
    (assign : b.kind ≠ .symbol .assign) :
    outcome (statement (name :: b :: ts)) =
      outcome (expression .lowest (name :: b :: ts)) >>= fun (e, us) =>
        .ok (.expression name.position e, us) := by
  rw [outcome_namedStatement kind]
  exact outcome_named name (lacks_cons.mpr assign) (lacks_cons.mpr bracket)

theorem statement_compared {object : Expr} {s : Stmt} {us : List Token}
    (kind : name.kind = .identifier) (bracket : b.kind ≠ .symbol .leftBracket)
    (assign : b.kind ≠ .symbol .assign) (mark : u.kind = .symbol .assign)
    (operand : Derives (.expression .postfixes object) (name :: b :: ts) (u :: vs))
    (read : outcome (statement (name :: b :: ts)) = .ok (s, us)) :
    ∃ e right ws, s = .expression name.position e ∧
      outcome (expression (.chain .sum) vs) = .ok (right, ws) ∧
      (Expr.binary object.position .eq object right).Begins e := by
  rw [statement_called kind bracket assign] at read
  obtain ⟨⟨e, ws⟩, whole, same⟩ := bind_ok read
  cases same
  obtain ⟨right, ws, sum, first⟩ :=
    (derives_expression.mpr whole).compared (by simp [opens, kind]) operand mark
  exact ⟨e, right, ws, rfl, sum.reads, first⟩

end Statement

/-- A line of an item and what is assigned to it is read as the assignment exactly if it begins with
a name and an opening bracket. Otherwise it is an expression, if anything, that begins with the
comparison of the item; if the value is a sum, it is this comparison. -/
theorem statement_of_target {name u nl : Token} {ts vs rest : List Token} {place : Position}
    {object index value : Expr} (kind : name.kind = .identifier) (mark : u.kind = .symbol .assign)
    (line : nl.kind = .layout .newline)
    (target : outcome (expression .postfixes (name :: (ts ++ u :: (vs ++ nl :: rest)))) =
      .ok (.item place object index, u :: (vs ++ nl :: rest)))
    (read : outcome (expression .lowest (vs ++ nl :: rest)) = .ok (value, nl :: rest)) :
    (outcome (statement (name :: (ts ++ u :: (vs ++ nl :: rest)))) =
        .ok (.assignIndex name.position object index value, nl :: rest) ↔
      beginsItem (name :: ts) = true) ∧
    (beginsItem (name :: ts) = false →
      (∀ s us, outcome (statement (name :: (ts ++ u :: (vs ++ nl :: rest)))) = .ok (s, us) →
        ∃ e right ws, s = .expression name.position e ∧
          outcome (expression (.chain .sum) (vs ++ nl :: rest)) = .ok (right, ws) ∧
          (Expr.binary place .eq (.item place object index) right).Begins e) ∧
      (outcome (expression (.chain .sum) (vs ++ nl :: rest)) = .ok (value, nl :: rest) →
        outcome (statement (name :: (ts ++ u :: (vs ++ nl :: rest)))) =
          .ok (.expression name.position (.binary place .eq (.item place object index) value),
            nl :: rest))) := by
  cases ts with
  | nil => cases (outcome_postfixes_assign kind mark _).symm.trans target
  | cons b ts =>
    rw [List.cons_append] at target ⊢
    have assign : b.kind ≠ .symbol .assign := fun same =>
      nomatch (outcome_postfixes_assign kind same _).symm.trans target
    by_cases bracket : b.kind = .symbol .leftBracket
    · have begins : beginsItem (name :: b :: ts) = true := by simp [beginsItem, kind, bracket]
      rw [statement_indexed kind bracket mark target, bind_of_ok read]
      exact ⟨iff_of_true rfl begins, fun other => absurd (begins.symm.trans other) (by decide)⟩
    · have begins : beginsItem (name :: b :: ts) = false := by simp [beginsItem, bracket]
      have operand := derives_expression.mpr target
      refine ⟨iff_of_false (fun found => ?_) (by simp [begins]), fun _ => ⟨fun s us found => ?_,
        fun sum => ?_⟩⟩
      · obtain ⟨e, right, ws, same, -⟩ := statement_compared kind bracket assign mark operand found
        cases same
      · exact statement_compared kind bracket assign mark operand found
      · have halts := halts_of_kind line rfl rest
        have whole := (operand.comparison mark (derives_expression.mpr sum) halts).reads
        rw [statement_called kind bracket assign]
        exact bind_of_ok whole _

theorem statement_of_target_nested :
    let ts : List Token := [⟨.symbol .leftBracket, .str "[", ⟨1, 2⟩⟩, ⟨.number, .int 0, ⟨1, 3⟩⟩,
      ⟨.symbol .rightBracket, .str "]", ⟨1, 4⟩⟩, ⟨.symbol .dot, .str ".", ⟨1, 5⟩⟩,
      ⟨.identifier, .str "noms", ⟨1, 6⟩⟩, ⟨.symbol .leftBracket, .str "[", ⟨1, 10⟩⟩,
      ⟨.number, .int 1, ⟨1, 11⟩⟩, ⟨.symbol .rightBracket, .str "]", ⟨1, 12⟩⟩]
    let line : List Token := ⟨.identifier, .str "x", ⟨1, 1⟩⟩ :: (ts ++
      ⟨.symbol .assign, .str "=", ⟨1, 14⟩⟩ :: ([⟨.identifier, .str "v", ⟨1, 16⟩⟩] ++
        [.newline ⟨1, 17⟩]))
    ∃ object, tokenize "x[0].noms[1] = v\n" = .ok (line ++ [.eof ⟨2, 1⟩]) ∧
      outcome (expression .postfixes line) =
        .ok (.item ⟨1, 1⟩ object (.literal ⟨1, 11⟩ (.int 1)), line.drop 9) ∧
      outcome (statement line) = .ok (.assignIndex ⟨1, 1⟩ object (.literal ⟨1, 11⟩ (.int 1))
        (.identifier ⟨1, 16⟩ "v"), [.newline ⟨1, 17⟩]) := by
  intro ts line
  let inner : Expr := .item ⟨1, 1⟩ (.identifier ⟨1, 1⟩ "x") (.literal ⟨1, 3⟩ (.int 0))
  have target : outcome (expression .postfixes line) = .ok (.item ⟨1, 1⟩
      (.attribute ⟨1, 1⟩ inner "noms") (.literal ⟨1, 11⟩ (.int 1)), line.drop 9) := by cbv
  have value : outcome (expression .lowest (line.drop 10)) =
      .ok (.identifier ⟨1, 16⟩ "v", [.newline ⟨1, 17⟩]) := by cbv
  exact ⟨_, by decide +kernel, target, (statement_of_target rfl rfl rfl target value).1.mpr rfl⟩

theorem statement_of_target_attribute :
    let line : List Token := [⟨.identifier, .str "chat", ⟨1, 1⟩⟩, ⟨.symbol .dot, .str ".", ⟨1, 5⟩⟩,
      ⟨.identifier, .str "noms", ⟨1, 6⟩⟩, ⟨.symbol .leftBracket, .str "[", ⟨1, 10⟩⟩,
      ⟨.number, .int 0, ⟨1, 11⟩⟩, ⟨.symbol .rightBracket, .str "]", ⟨1, 12⟩⟩,
      ⟨.symbol .assign, .str "=", ⟨1, 14⟩⟩, ⟨.identifier, .str "v", ⟨1, 16⟩⟩, .newline ⟨1, 17⟩]
    let item : Expr := .item ⟨1, 1⟩ (.attribute ⟨1, 1⟩ (.identifier ⟨1, 1⟩ "chat") "noms")
      (.literal ⟨1, 11⟩ (.int 0))
    let value : Expr := .identifier ⟨1, 16⟩ "v"
    tokenize "chat.noms[0] = v\n" = .ok (line ++ [.eof ⟨2, 1⟩]) ∧
      outcome (expression .postfixes line) = .ok (item, line.drop 6) ∧
      outcome (expression .lowest (line.drop 7)) = .ok (value, [.newline ⟨1, 17⟩]) ∧
      outcome (statement line) =
        .ok (.expression ⟨1, 1⟩ (.binary ⟨1, 1⟩ .eq item value), [.newline ⟨1, 17⟩]) := by
  intro line item value
  exact ⟨by decide +kernel, by cbv, by cbv, by cbv⟩

end Grammar

end Miaou
