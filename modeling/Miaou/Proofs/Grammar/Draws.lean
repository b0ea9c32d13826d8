import Miaou.Proofs.Grammar.Forms
import Miaou.Proofs.Grammar.Scannable
import Miaou.Proofs.Grammar.Values

/-!
Printed draws. A draw is printed as a call whatever form it was read from, and a group behind the
word for a random number is told from a bound by a comma. So a draw with one argument, which is
read from a group with a comma at its end, is printed without any comma and refused, and every
other draw is read back with its arguments.
-/

namespace Miaou.Grammar

open Piece

/-- The printed line of an expression is read as this expression and nothing more, up to places. -/
def ReadsBack (e : Expr) : Prop :=
  ∃ ts nl finish e', nl.kind = .layout .newline ∧
    tokenize (e.text ++ "\n") = .ok (ts ++ [nl, .eof finish]) ∧
      outcome (expression .lowest (ts ++ [nl])) = .ok (e', [nl]) ∧ e'.unplaced = e.unplaced

/-- The printed line of an expression is refused at its end. -/
def Unfinished (e : Expr) : Prop :=
  ∃ ts nl finish, nl.kind = .layout .newline ∧
    tokenize (e.text ++ "\n") = .ok (ts ++ [nl, .eof finish]) ∧
      outcome (expression .lowest (ts ++ [nl])) = .error ⟨.unknownInstruction, [nl]⟩

structure Reproduced (e : Expr) (gs : List Token) : Prop where
  stretch : Stretch e.text.toList gs
  read : Derives (.expression .lowest e.unplaced) (gs ++ [.mark .newline]) [.mark .newline]

@[simp] theorem text_unplaced (e : Expr) : e.unplaced.text = e.text := Expr.text_relocate _ e

theorem reproduced_of_readsBack {e : Expr} (h : ReadsBack e) : ∃ gs, Reproduced e gs := by
  obtain ⟨ts, nl, finish, e', -, tokens, read, same⟩ := h
  have derived := derives_expression.mpr read
  obtain ⟨gs, stretch⟩ : Scannable e.text := by
    rw [← text_unplaced, ← same, text_unplaced]
    refine scannable_of_read (fun t ht => tokenize_isRead tokens t ?_) derived
    rw [List.append_cons]
    exact List.mem_append_left _ ht
  obtain ⟨us, nl', finish', mark, tokens', inner⟩ :=
    @tokenize_line (e.text ++ "\n") _ _ String.toList_append stretch
  obtain ⟨rfl, ended⟩ := List.append_inj' (Except.ok.inj (tokens.symm.trans tokens')) rfl
  obtain ⟨rfl, -⟩ := List.cons.inj ended
  have moved := derived.unplaced
  rw [List.map_append, List.map_singleton, inner, mark, same] at moved
  exact ⟨gs, stretch, moved⟩

namespace Reproduced

variable {e : Expr} {gs : List Token}

theorem before (h : Reproduced e gs) {rest : List Token} (halts : Halts 9 rest) :
    Derives (.expression .lowest e.unplaced) (gs ++ rest) rest :=
  h.read.halting (Nat.le_refl _) halts

theorem placed (h : Reproduced e gs) {ts us : List Token} (same : ts.map Token.unplaced = gs)
    (halts : Halts 9 us) :
    ∃ e', Derives (.expression .lowest e') (ts ++ us) us ∧ e'.unplaced = e.unplaced := by
  have halts' : Halts 9 (us.map Token.unplaced) := by
    cases us with
    | nil => exact halts
    | cons u us => exact halts_cons.mpr ((@halts_cons 9 u us).mp halts)
  have read := h.before halts'
  rw [← same, ← List.map_append] at read
  obtain ⟨e', read', like⟩ := expression_placed read
  exact ⟨e', derives_expression.mpr read', like⟩

theorem readsBack (h : Reproduced e gs) : ReadsBack e := by
  obtain ⟨ts, nl, finish, mark, tokens, inner⟩ :=
    @tokenize_line (e.text ++ "\n") _ _ String.toList_append h.stretch
  have line : nl.kind = .layout .newline := congrArg Token.kind mark
  obtain ⟨e', read, same⟩ := h.placed inner (halts_of_kind line rfl [])
  exact ⟨ts, nl, finish, e', line, tokens, read.reads, same⟩

end Reproduced

theorem readsBack_of_faithful {e : Expr} (h : Faithful e) : ReadsBack e := by
  obtain ⟨gs, spells⟩ := h.lowest
  have stretch : Stretch e.text.toList gs :=
    ⟨(spells_opening spells).begins, fun _ ends => spells_yields spells ends⟩
  have read := derives_of_completes (spells_completes spells)
    (@halts_of_none (.mark .newline) rfl 9 [])
  exact Reproduced.readsBack ⟨stretch, read⟩

/-! A group of arguments -/

abbrev Given (es : List Expr) (parts : List (List Token)) : Prop :=
  List.Forall₂ Reproduced es parts

theorem halts_rest (parts : List (List Token)) (rest : List Token) :
    Halts 9 (restTokens parts ++ rest) := by
  cases parts <;> exact halts_of_none rfl 9 _

theorem derives_rest {es : List Expr} {parts : List (List Token)} (h : Given es parts)
    (rest : List Token) :
    Derives (.moreArguments (es.map Expr.unplaced)) (restTokens parts ++ rest) rest := by
  induction h with
  | nil => exact .argumentsEnd rfl
  | @cons e gs es parts first more ih =>
    rw [restTokens, List.cons_append, List.append_assoc]
    exact .argumentsMore rfl ((first.before (halts_rest parts rest)).argument_cons ih)

theorem derives_group {es : List Expr} {parts : List (List Token)} (h : Given es parts)
    (rest : List Token) :
    Derives (.arguments (es.map Expr.unplaced)) (groupTokens parts ++ rest) rest := by
  cases h with
  | nil => exact .argumentsNone rfl
  | @cons e gs es parts first more =>
    rw [groupTokens, List.append_assoc]
    exact (first.before (halts_rest parts rest)).argument_cons (derives_rest more rest)

theorem listsArguments_given {es : List Expr} {parts : List (List Token)} (h : Given es parts)
    (size : es.length ≠ 1) (rest : List Token) :
    listsArguments (groupTokens parts ++ rest) = true := by
  cases h with
  | nil => rfl
  | @cons e gs es parts first more =>
    rw [groupTokens, List.append_assoc, (first.before (halts_rest parts rest)).listsArguments_eq]
    cases more with
    | nil => exact absurd rfl size
    | cons second others => exact commaAhead_separated rfl _

/-! Draws -/

def drawTokens (parts : List (List Token)) : List Token :=
  .word (.keyword .aleatoire) "aleatoire" :: .sign .leftParen :: groupTokens parts

theorem stretch_draw {pos : Position} {es : List Expr} {parts : List (List Token)}
    (h : Given es parts) :
    Stretch (Expr.call pos "aleatoire" es).text.toList (drawTokens parts) := by
  have texts : Stretches (Expr.texts es) parts := by
    rw [texts_eq_map, Stretches, List.forall₂_map_left_iff]
    exact h.imp fun _ _ part => part.stretch
  exact stretch_group named_aleatoire.stands.stretch texts

theorem Derives.operand {e : Expr} {ts us : List Token} (h : Derives (.primary e) ts us)
    (halts : Halts 9 us) (level : Level) : Derives (.expression level e) ts us := by
  have lacks {kind : Kind} (found : goesOn? kind = some 1) : Lacks kind us :=
    halts.lacks found (by decide)
  have tight : Derives (.expression .postfixes e) ts us :=
    .postfixes h (.accessesEnd (lacks rfl) (lacks rfl) (lacks rfl))
  exact tight.looser (Level.one_le_rank level) (halts.mono (Level.rank_le level))

theorem reproduced_draw {pos : Position} {es : List Expr} {parts : List (List Token)}
    (h : Given es parts) (size : es.length ≠ 1) :
    Reproduced (.call pos "aleatoire" es) (drawTokens parts) := by
  refine ⟨stretch_draw h, ?_⟩
  have lists := listsArguments_given h size [.mark .newline]
  have call : argumentGroup? (.sign .leftParen :: (groupTokens parts ++ [.mark .newline])) =
      some (groupTokens parts ++ [.mark .newline]) := by
    rw [argumentGroup?_paren rfl, if_pos lists]
  have drawn := @Derives.random (.word (.keyword .aleatoire) "aleatoire") _ _ _ _ rfl call
    (derives_group h _)
  rw [Expr.unplaced, Expr.relocate, Expr.relocateAll_eq_map]
  exact drawn.operand (halts_of_none rfl 9 _) .lowest

theorem expression_refused {t : Token} {kind : Kind} {ts : List Token} {failure : Failure}
    (same : t.kind = kind) (word : kind ≠ .keyword .non) (mark : sign? kind = none)
    (h : outcome (primary (t :: ts)) = .error failure) :
    ∀ level, outcome (expression level (t :: ts)) = .error failure
  | .chain c => by
    rw [outcome_chain, expression_refused same word mark h c.operands]
    rfl
  | .negation => by
    rw [outcome_negation (lacks_of_kind same word),
      expression_refused same word mark h (.chain .comparison)]
  | .power => by
    rw [outcome_power, expression_refused same word mark h .sign]
    rfl
  | .sign => by
    have unsigned : ∀ u ∈ (t :: ts).head?, sign? u.kind = none := by
      rintro _ ⟨⟩
      rwa [same]
    rw [outcome_unsigned unsigned, expression_refused same word mark h .postfixes]
  | .postfixes => by
    rw [outcome_postfixes, h]
    rfl
termination_by level => level.rank
decreasing_by
  all_goals first | exact Level.rank_operands _ | decide

theorem draw_refused {a : Expr} {gs : List Token} (h : Reproduced a gs) {t p q nl : Token}
    {xs : List Token} (word : t.kind = .keyword .aleatoire) (mark : p.kind = .symbol .leftParen)
    (close : q.kind = .symbol .rightParen) (line : nl.kind = .layout .newline)
    (same : xs.map Token.unplaced = gs) (level : Level) :
    outcome (expression level (t :: p :: (xs ++ [q, nl]))) =
      .error ⟨.unknownInstruction, [nl]⟩ := by
  obtain ⟨a', inner, -⟩ := h.placed same (halts_of_kind close rfl [nl])
  have bound := (Derives.group mark inner close).operand (halts_of_kind line rfl []) (.chain .sum)
  have closed : opens nl = false := by
    simp [opens, line, literal?]
  have missing : outcome (expression (.chain .sum) [nl]) = .error ⟨.unknownInstruction, [nl]⟩ :=
    expression_refused line (by decide) rfl (outcome_unknown (by simpa using closed)) _
  have skipped : skipRangeWord [nl] = [nl] := by simp [skipRangeWord, line]
  refine expression_refused word (by decide) rfl ?_ level
  rw [outcome_range word bound.argumentGroup?_eq_none, bind_of_ok bound.reads]
  dsimp only
  rw [skipped, missing]
  rfl

theorem unfinished_draw {pos : Position} {a : Expr} {gs : List Token} (h : Reproduced a gs) :
    Unfinished (.call pos "aleatoire" [a]) := by
  obtain ⟨ts, nl, finish, mark, tokens, same⟩ :=
    @tokenize_line ((Expr.call pos "aleatoire" [a]).text ++ "\n") _ _ String.toList_append
      (stretch_draw (.cons h .nil))
  -- The tokens are the word, the parentheses and the argument between them.
  obtain ⟨t, us, rfl, word, same⟩ := List.map_eq_cons_iff.mp same
  obtain ⟨p, us, rfl, opened, same⟩ := List.map_eq_cons_iff.mp same
  obtain ⟨xs, zs, rfl, inner, same⟩ := List.map_eq_append_iff.mp same
  obtain ⟨q, rfl, closed⟩ := List.map_eq_singleton_iff.mp same
  have line : nl.kind = .layout .newline := congrArg Token.kind mark
  have refused := @draw_refused a gs h t p q nl xs (congrArg Token.kind word)
    (congrArg Token.kind opened) (congrArg Token.kind closed) line inner .lowest
  rw [List.append_cons] at refused
  exact ⟨_, nl, finish, line, tokens, refused⟩

theorem Unfinished.not_readsBack {e : Expr} (h : Unfinished e) : ¬ReadsBack e := by
  rintro ⟨ts, nl, finish, e', -, tokens, read, -⟩
  obtain ⟨us, nl', finish', -, tokens', refused⟩ := h
  obtain ⟨rfl, ended⟩ := List.append_inj' (Except.ok.inj (tokens.symm.trans tokens')) rfl
  obtain ⟨rfl, -⟩ := List.cons.inj ended
  rw [read] at refused
  cases refused

theorem draw_cases {t : Token} {ts us : List Token} {e : Expr}
    (word : t.kind = .keyword .aleatoire) (read : outcome (primary (t :: ts)) = .ok (e, us)) :
    (∃ p inner given, ts = p :: inner ∧ p.kind = .symbol .leftParen ∧
      listsArguments inner = true ∧ Derives (.arguments given) inner us ∧
        e = .call t.position "aleatoire" given) ∨
      ∃ low high, e = .call t.position "aleatoire" [low, high] := by
  cases call : argumentGroup? ts with
  | none =>
    rw [outcome_range word call] at read
    obtain ⟨⟨low, vs⟩, -, more⟩ := bind_ok read
    obtain ⟨⟨high, ws⟩, -, same⟩ := bind_ok more
    cases same
    exact .inr ⟨low, high, rfl⟩
  | some inner =>
    rw [outcome_random word call] at read
    obtain ⟨⟨given, vs⟩, group, same⟩ := bind_ok read
    cases same
    obtain ⟨p, mark, rfl⟩ := argumentGroup?_cons call
    rw [argumentGroup?_paren mark, Option.ite_none_right_eq_some] at call
    exact .inl ⟨p, inner, given, rfl, mark, call.1, ExprGoal.derived .arguments inner group, rfl⟩

/-- A group of one expression with a comma behind it. -/
def CommaEnded (ts us : List Token) : Prop :=
  ∃ p inner a c q, ts = p :: inner ∧ p.kind = .symbol .leftParen ∧
    outcome (expression .lowest inner) = .ok (a, c :: q :: us) ∧
      c.kind = .symbol .comma ∧ q.kind = .symbol .rightParen

/-- A draw has one argument exactly if it is read from such a group. -/
theorem draw_single {t : Token} {ts us : List Token} {given : List Expr}
    (word : t.kind = .keyword .aleatoire)
    (read : outcome (primary (t :: ts)) = .ok (.call t.position "aleatoire" given, us)) :
    given.length = 1 ↔ CommaEnded ts us := by
  constructor
  · intro one
    obtain ⟨a, rfl⟩ := List.length_eq_one_iff.mp one
    rcases draw_cases word read with ⟨p, inner, given, rfl, mark, lists, group, same⟩ |
      ⟨low, high, same⟩
    · cases same
      cases group with
      | argument other first more =>
        cases more with
        | argumentsEnd close =>
          have bound := first.listsArguments_eq
          rw [commaAhead_close close, lists] at bound
          cases bound
        | argumentsMore comma more =>
          cases more with
          | argumentsNone close => exact ⟨p, _, a, _, _, rfl, mark, first.reads, comma, close⟩
    · cases same
  · rintro ⟨p, inner, a, c, q, rfl, mark, first, comma, close⟩
    have derived := derives_expression.mpr first
    have call : argumentGroup? (p :: inner) = some inner := by
      rw [argumentGroup?_paren mark,
        if_pos (derived.listsArguments_eq.trans (commaAhead_separated comma _))]
    have group := derived.argument_cons (.argumentsMore comma (.argumentsNone close))
    have drawn := read.symm.trans (Derives.random word call group).reads
    cases drawn
    rfl

/-- A draw that is read from any tokens, in any of its forms, is a call; if its arguments read
back, so does the call, unless it has one argument only. Its printed line is then refused at its
end. That is the case exactly if the draw was read from a group of one expression with a comma
behind it. -/
theorem draw_readsBack {t : Token} {ts us : List Token} {e : Expr}
    (word : t.kind = .keyword .aleatoire) (read : outcome (primary (t :: ts)) = .ok (e, us)) :
    ∃ given, e = .call t.position "aleatoire" given ∧ (given.length = 1 ↔ CommaEnded ts us) ∧
      ((∀ a ∈ given, ReadsBack a) →
        (ReadsBack e ↔ given.length ≠ 1) ∧ (given.length = 1 → Unfinished e)) := by
  obtain ⟨given, rfl⟩ : ∃ given, e = .call t.position "aleatoire" given := by
    rcases draw_cases word read with ⟨-, -, given, -, -, -, -, same⟩ | ⟨low, high, same⟩
    · exact ⟨given, same⟩
    · exact ⟨[low, high], same⟩
  refine ⟨given, rfl, draw_single word read, fun arguments => ?_⟩
  have single (one : given.length = 1) : Unfinished (.call t.position "aleatoire" given) := by
    obtain ⟨a, rfl⟩ := List.length_eq_one_iff.mp one
    obtain ⟨gs, first⟩ := reproduced_of_readsBack (arguments a List.mem_cons_self)
    exact unfinished_draw first
  refine ⟨⟨fun back one => (single one).not_readsBack back, fun several => ?_⟩, single⟩
  obtain ⟨parts, reproduced⟩ : ∃ parts, Given given parts :=
    exists_forall₂ fun a member => reproduced_of_readsBack (arguments a member)
  exact (reproduced_draw reproduced several).readsBack

theorem readsBack_natural {n : Nat} (small : n ≤ Lexeme.largest) (pos : Position) :
    ReadsBack (.literal pos (.int n)) :=
  readsBack_of_faithful (spelled_literal (stands_natural small))

theorem draw_readsBack_bounds :
    let draw : Token := ⟨.keyword .aleatoire, .str "aleatoire", ⟨1, 1⟩⟩
    let bounds : List Token := [⟨.number, .int 1, ⟨1, 11⟩⟩, ⟨.identifier, .str "a", ⟨1, 13⟩⟩,
      ⟨.number, .int 6, ⟨1, 15⟩⟩]
    let call : Expr :=
      .call ⟨1, 1⟩ "aleatoire" [.literal ⟨1, 11⟩ (.int 1), .literal ⟨1, 15⟩ (.int 6)]
    tokenize "aleatoire 1 a 6\n" = .ok (draw :: bounds ++ [.newline ⟨1, 16⟩, .eof ⟨2, 1⟩]) ∧
      outcome (primary (draw :: (bounds ++ [.newline ⟨1, 16⟩]))) =
        .ok (call, [.newline ⟨1, 16⟩]) ∧
      call.text = "aleatoire(1, 6)" ∧ ReadsBack call := by
  intro draw bounds call
  have read : outcome (primary (draw :: (bounds ++ [.newline ⟨1, 16⟩]))) =
      .ok (call, [.newline ⟨1, 16⟩]) := by cbv
  obtain ⟨given, same, -, back⟩ := draw_readsBack rfl read
  cases (Expr.call.inj same).2.2
  have arguments : ∀ a ∈ [Expr.literal ⟨1, 11⟩ (.int 1), .literal ⟨1, 15⟩ (.int 6)],
      ReadsBack a := by
    intro a member
    simp only [List.mem_cons, List.not_mem_nil, or_false] at member
    rcases member with rfl | rfl
    · exact readsBack_natural (n := 1) (by decide) _
    · exact readsBack_natural (n := 6) (by decide) _
  exact ⟨by decide +kernel, read, by decide +kernel, (back arguments).1.mpr (by decide)⟩

/-- A comma behind the only argument is accepted and not printed; without it the line ends where
the second bound should be. -/
theorem draw_readsBack_comma :
    let draw : Token := ⟨.keyword .aleatoire, .str "aleatoire", ⟨1, 1⟩⟩
    let group : List Token := [⟨.symbol .leftParen, .str "(", ⟨1, 10⟩⟩, ⟨.number, .int 5, ⟨1, 11⟩⟩,
      ⟨.symbol .comma, .str ",", ⟨1, 12⟩⟩, ⟨.symbol .rightParen, .str ")", ⟨1, 13⟩⟩]
    let call : Expr := .call ⟨1, 1⟩ "aleatoire" [.literal ⟨1, 11⟩ (.int 5)]
    tokenize "aleatoire(5,)\n" = .ok (draw :: group ++ [.newline ⟨1, 14⟩, .eof ⟨2, 1⟩]) ∧
      outcome (primary (draw :: (group ++ [.newline ⟨1, 14⟩]))) =
        .ok (call, [.newline ⟨1, 14⟩]) ∧
      call.text = "aleatoire(5)" ∧ ReadsBack (.literal ⟨1, 11⟩ (.int 5)) ∧
      Unfinished call ∧ ¬ReadsBack call := by
  intro draw group call
  have argument := readsBack_natural (n := 5) (by decide) ⟨1, 11⟩
  obtain ⟨gs, first⟩ := reproduced_of_readsBack argument
  have refused : Unfinished call := unfinished_draw first
  exact ⟨by decide +kernel, by cbv, by decide +kernel, argument, refused, refused.not_readsBack⟩

end Miaou.Grammar
