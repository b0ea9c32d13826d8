import Miaou.Proofs.Grammar.Plain
import Miaou.Proofs.Grammar.RoundTrip

/-!
Printed values. A statement that prints takes its values one behind the other with nothing between
them, so a value that is printed with a parenthesis in front goes on with the value before it: as
the arguments of a call behind a name or an attribute, and as an error behind anything else. The
printed line of such a statement is read as this statement exactly when no value behind the first
is printed so.
-/

namespace Miaou

namespace Grammar

open Piece

/-! An expression with more behind it -/

def Phrase.Further : Phrase → List Token → Prop
  | .expression .postfixes e, gs =>
    ∀ rest, outcome (Grammar.expression .postfixes (gs ++ rest)) =
      outcome (Grammar.accesses e rest)
  | _, _ => True

theorem further_primary {e : Expr} {gs : List Token}
    (read : ∀ rest, Derives (.primary e) (gs ++ rest) rest) :
    (Phrase.expression .postfixes e).Further gs :=
  fun rest => (outcome_postfixes _).trans (bind_of_ok (read rest).reads _)

/-- What is written at the tightest level is read whatever comes behind it, and what comes behind
is read from there, be it well-formed or not. -/
theorem spells_further {phrase : Phrase} {cs : List Char} {gs : List Token}
    (h : Spells phrase cs gs) : phrase.Further gs := by
  induction h with
  | @literal value cs stands =>
    refine further_primary fun rest => ?_
    have read := @Derives.literal _ _ rest (literal?_token value)
    rwa [Literal.position_token] at read
  | @name w named =>
    exact further_primary fun rest => @Derives.identifier (.word .identifier w) rest rfl
  | compteur =>
    exact further_primary fun rest =>
      @Derives.compteur (.word (.keyword .compteur) "compteur") rest rfl
  | @lift l e cs gs inner ih =>
    cases l with
    | chain c => cases c <;> exact True.intro
    | _ => exact True.intro
  | group inner ih =>
    refine further_primary fun rest => ?_
    have whole := derives_of_completes (spells_completes inner)
      (@halts_of_none (.sign .rightParen) rfl 9 rest)
    rw [List.cons_append, List.append_assoc]
    exact .group rfl whole rfl
  | @call object function given cs ds gs hs path first group ih ih' =>
    intro rest
    have start := (spells_opening first).position
    have inner : Derives (.arguments given) (hs ++ rest) rest := spells_completes group rest
    rw [List.append_assoc, ih, List.cons_append, outcome_call rfl path, bind_of_ok inner.reads]
    exact congrArg (fun p => outcome (accesses (.call p function given) rest)) start
  | @item object index cs ds gs hs first inner ih ih' =>
    intro rest
    have start := (spells_opening first).position
    have whole := derives_of_completes (spells_completes inner)
      (@halts_of_none (.sign .rightBracket) rfl 9 rest)
    rw [List.append_assoc, ih, List.cons_append, List.append_assoc, outcome_item rfl]
    refine (bind_of_ok whole.reads _).trans ((bind_of_ok (outcome_expect _ rfl _) _).trans ?_)
    exact congrArg (fun p => outcome (accesses (.item p object index) rest)) start
  | @«attribute» object w kind cs gs named names first ih =>
    intro rest
    have start := (spells_opening first).position
    rw [List.append_assoc, ih]
    refine (outcome_attribute (t := .sign .dot) (u := .word kind w) rfl names object rest).trans ?_
    rw [start, lexeme_word names]
  | list given ih =>
    exact further_primary fun rest => @Derives.list (.word (.keyword .liste) "liste")
      (.sign .leftParen) _ _ _ rfl rfl (spells_completes given rest)
  | dict given ih =>
    exact further_primary fun rest => @Derives.dict (.word (.keyword .dictionnaire) "dictionnaire")
      (.sign .leftParen) _ _ _ rfl rfl (spells_completes given rest)
  | @builtin function es cs gs given ih =>
    exact further_primary fun rest =>
      @Derives.builtin (.word (.builtin function) function.function) (.sign .leftParen) _ _ _ _ rfl
        rfl (spells_completes given rest)
  | @random given cs gs size group ih =>
    refine further_primary fun rest => ?_
    have lists := spells_listsArguments group size rest
    refine @Derives.random (.word (.keyword .aleatoire) "aleatoire") _ _ (gs ++ rest) _ rfl ?_
      (spells_completes group rest)
    simp [argumentGroup?, Token.sign, lists]
  | _ => trivial

namespace Tokens

variable {e : Expr} {t : Token} {gs : List Token} (h : Tokens e t gs)

include h

theorem opens : Grammar.opens t = true := by
  obtain ⟨u, ⟨⟩, opensAt⟩ := (spells_opening h.spells).token
  rcases opensAt with opens | ⟨-, high⟩ | ⟨-, high⟩
  · exact opens
  · exact absurd high (by decide)
  · exact absurd high (by decide)

theorem grows {e' : Expr} {rest us : List Token} {p : Token} {level : Level}
    (paren : p.kind = .symbol .leftParen)
    (read : outcome (Grammar.expression level (t :: (gs ++ p :: rest))) = .ok (e', us)) :
    e.text.length < e'.text.length := by
  obtain ⟨first, vs, chain, -, size, -⟩ := (derives_expression.mpr read).leading h.opens
  have further : outcome (Grammar.expression .postfixes (t :: (gs ++ p :: rest))) =
      outcome (accesses e.unplaced (p :: rest)) := spells_further h.spells (p :: rest)
  have goes := further.symm.trans (derives_expression.mp chain)
  have same : e.unplaced.text = e.text := e.text_relocate _
  refine Nat.lt_of_lt_of_le ?_ size
  rw [← same]
  cases path : e.unplaced.path? with
  | none =>
    rw [outcome_uncalled paren path] at goes
    cases goes
  | some function =>
    rw [outcome_call paren path] at goes
    obtain ⟨⟨given, ws⟩, -, more⟩ := bind_ok goes
    have grown : Derives (.accesses (.call e.unplaced.position function given) first) ws vs :=
      ExprGoal.derived (.accesses _) _ more
    exact Nat.lt_of_lt_of_le (length_text_call path _ _) grown.grows

theorem paren_iff : t.kind = .symbol .leftParen ↔ '(' ∈ e.text.toList.head? := by
  refine ⟨spells_parenthesised h.spells t rfl, fun head => ?_⟩
  obtain ⟨cs, text⟩ := List.head?_eq_some_iff.mp head
  have yields := h.stretch.yields [] ends_nil
  have paren : Yields ['('] [.sign .leftParen] cs := yields_symbol .leftParen fun _ _ => rfl
  obtain ⟨ts, read, same⟩ := yields .start
  obtain ⟨us, read', same'⟩ := paren .start
  obtain ⟨u, rfl, sign⟩ := List.map_eq_singleton_iff.mp same'
  obtain ⟨u', us, rfl, rfl, -⟩ := List.map_eq_cons_iff.mp same
  rw [List.append_nil, text] at read
  cases (List.cons.inj (read.symm.trans read')).1
  exact congrArg Token.kind sign

end Tokens

/-! Values of a line -/

namespace Row

variable {es : List Expr} {gs : List Token}

theorem lacks_paren (h : Row es gs) (rest : List Token) :
    Lacks (.symbol .leftParen) (gs ++ .mark .newline :: rest) ↔
      ∀ e ∈ es.head?, '(' ∉ e.text.toList.head? := by
  cases h with
  | nil => exact iff_of_true (lacks_cons.mpr (by decide)) nofun
  | cons first more =>
    rw [List.cons_append, lacks_cons, ne_eq, first.paren_iff]
    simp

/-- The tokens of a row are read as its values only if none behind the first begins with a
parenthesis: it would be read as part of the value before it. -/
theorem read_iff (h : Row es gs) (rest : List Token) :
    outcome (lineOfExpressions (gs ++ .mark .newline :: rest)) =
        .ok (es.map Expr.unplaced, .mark .newline :: rest) ↔
      ∀ e ∈ es.tail, '(' ∉ e.text.toList.head? := by
  refine ⟨fun all => ?_, fun apart => h.read apart rest⟩
  induction h with
  | nil => exact nofun
  | @cons e es t gs hs first more ih =>
    rw [List.cons_append, List.append_assoc,
      outcome_line (endsLine_of_beginsOperand first.begins _)] at all
    rcases lacks_or_cons (.symbol .leftParen) (hs ++ .mark .newline :: rest) with
      apart | ⟨p, behind, shape, paren⟩
    · rw [more.lacks_paren] at apart
      have halts := more.halts apart rest
      rw [bind_of_ok (first.read (.chain .sum) (halts.mono (by decide)))] at all
      obtain ⟨⟨es', us⟩, inner, same⟩ := bind_ok all
      cases same
      have behind := ih inner
      cases es with
      | nil => exact nofun
      | cons d ds => exact List.forall_mem_cons.mpr ⟨apart d rfl, behind⟩
    · obtain ⟨⟨e', us⟩, read, others⟩ := bind_ok all
      obtain ⟨⟨es', vs⟩, -, same⟩ := bind_ok others
      cases same
      rw [shape] at read
      have longer := first.grows paren read
      rw [Expr.unplaced, Expr.text_relocate] at longer
      exact absurd longer (Nat.lt_irrefl _)

end Row

/-! The line -/

/-- The printed line of a statement is read as this statement and nothing more, up to places. -/
def Rereads (s : Stmt) : Prop :=
  ∃ ts nl finish s', nl.kind = .layout .newline ∧
    tokenize (s.text 0) = .ok (ts ++ [nl, .eof finish]) ∧
      outcome (statement (ts ++ [nl])) = .ok (s', [nl]) ∧ s'.unplaced = s.unplaced

theorem statement_placed {ts us : List Token} {s : Stmt}
    (h : outcome (statement ((ts ++ us).map Token.unplaced)) = .ok (s, us.map Token.unplaced)) :
    ∃ s', outcome (statement (ts ++ us)) = .ok (s', us) ∧ s'.unplaced = s := by
  have same := @statement_relocate (fun _ => .start) (ts ++ us)
  change outcome (statement ((ts ++ us).map Token.unplaced)) = _ at same
  rw [h] at same
  cases found : outcome (statement (ts ++ us)) with
  | error failure =>
    rw [found] at same
    cases same
  | ok result =>
    obtain ⟨s', rest⟩ := result
    rw [found] at same
    obtain ⟨tree, left⟩ := Prod.mk.inj (Except.ok.inj same)
    have size : rest.length = us.length := by simpa using (congrArg List.length left).symm
    obtain ⟨taken, whole⟩ := (statement_takes (ts ++ us)).suffix found
    obtain ⟨-, rfl⟩ := List.append_inj' whole size
    exact ⟨s', rfl, tree.symm⟩

theorem yields_newline : Yields ['\n'] [.mark .newline] [] := by
  intro p
  refine ⟨[.newline p], ?_, rfl⟩
  rw [List.append_nil, ofContent_newline, ofLine_end rfl, ofContent_nil]
  rfl

theorem tokenize_line {text : String} {cs : List Char} {gs : List Token}
    (line : text.toList = cs ++ ['\n']) (h : Stretch cs gs) :
    ∃ ts nl finish, nl.unplaced = .mark .newline ∧ tokenize text = .ok (ts ++ [nl, .eof finish]) ∧
      ts.map Token.unplaced = gs := by
  have yields := yields_append (h.yields _ (ends_newline [])) yields_newline
  rw [← line] at yields
  obtain ⟨c, head, begins⟩ := h.begins
  obtain ⟨ts, finish, read, same⟩ :=
    tokenize_yields ⟨c, by rw [line]; exact Text.mem_head?_append head _, begins⟩ yields
  obtain ⟨us, vs, rfl, inner, last⟩ := List.map_eq_append_iff.mp same
  obtain ⟨nl, rfl, mark⟩ := List.map_eq_singleton_iff.mp last
  refine ⟨us, nl, finish, mark, ?_, inner⟩
  rw [read, List.append_assoc]
  rfl

theorem tokenize_print {es : List Expr} {gs : List Token} (row : Row es gs) (pos place : Position) :
    ∃ ts nl finish, nl.unplaced = .mark .newline ∧
      tokenize ((Stmt.expression pos (.call place "ecrire" es)).text 0) =
        .ok (ts ++ [nl, .eof finish]) ∧
      ts.map Token.unplaced = .word (.keyword .ecrire) "ecrire" :: gs := by
  have word : Stretch "ecrire".toList [.word (.keyword .ecrire) "ecrire"] :=
    stretch_keyword (by decide) (by decide) (by decide)
  refine tokenize_line ?_ (word.append (fun _ => row.yields) fun _ => row.ends)
  rw [Stmt.text, Stmt.toList_line, Stmt.expressionText, if_pos rfl, toList_separated,
    texts_eq_map, List.flatMap_map]
  rfl

theorem values_of_print {t : Token} (word : t.kind = .keyword .ecrire) {ts us : List Token}
    {s : Stmt} (read : outcome (statement (t :: ts)) = .ok (s, us)) :
    ∃ es, s = .expression t.position (.call t.position "ecrire" es) ∧
      outcome (lineOfExpressions ts) = .ok (es, us) := by
  rw [outcome_print word] at read
  obtain ⟨⟨es, vs⟩, values, same⟩ := bind_ok read
  cases same
  exact ⟨es, rfl, values⟩

/-- A statement that prints values is read from its printed line exactly if no value behind the
first is printed with a parenthesis in front. Its values come from tokens of a script whose
numbers are written without exponent and which draw no random number from one argument. That is
asked of the tokens, as the value a method is called on is kept as text only. -/
theorem print_rereads {t nl : Token} {ts : List Token} {es : List Expr}
    (word : t.kind = .keyword .ecrire) (printable : Printable (t :: (ts ++ [nl])))
    (read : outcome (statement (t :: (ts ++ [nl]))) =
      .ok (.expression t.position (.call t.position "ecrire" es), [nl])) :
    Rereads (.expression t.position (.call t.position "ecrire" es)) ↔
      ∀ e ∈ es.tail, '(' ∉ e.text.toList.head? := by
  obtain ⟨es', same, values⟩ := values_of_print word read
  cases same
  have behind : Behind (t :: (ts ++ [nl])) (ts ++ [nl]) :=
    ⟨t, by rw [word]; decide, List.suffix_refl _⟩
  obtain ⟨gs, row⟩ := row_of_faithful (line_faithful printable behind values).1
  obtain ⟨us, m, finish, mark, tokens, inner⟩ := tokenize_print row t.position t.position
  have places : (us ++ [m]).map Token.unplaced =
      .word (.keyword .ecrire) "ecrire" :: (gs ++ [.mark .newline]) := by
    rw [List.map_append, inner, List.map_singleton, mark]
    rfl
  have unplaced : (Stmt.expression t.position (.call t.position "ecrire" es)).unplaced =
      .expression .start (.call .start "ecrire" (es.map Expr.unplaced)) := by
    rw [Stmt.unplaced, Stmt.relocate, Expr.relocate, Expr.relocateAll_eq_map]
    rfl
  rw [← row.read_iff []]
  constructor
  · rintro ⟨us', m', finish', s', -, tokens', read, again⟩
    obtain ⟨rfl, ended⟩ := List.append_inj' (Except.ok.inj (tokens.symm.trans tokens')) rfl
    obtain ⟨rfl, -⟩ := List.cons.inj ended
    have moved := @statement_relocate (fun _ => .start) (us ++ [m])
    change outcome (statement ((us ++ [m]).map Token.unplaced)) = _ at moved
    rw [read, places, outcome_print rfl] at moved
    obtain ⟨⟨es', vs⟩, found, same⟩ := bind_ok moved
    obtain ⟨tree, left⟩ := Prod.mk.inj (Except.ok.inj same)
    cases tree.trans (again.trans unplaced)
    rw [found, left]
    exact congrArg (fun n => Except.ok (_, [n])) mark
  · intro all
    have whole : outcome (statement ((us ++ [m]).map Token.unplaced)) =
        .ok (.expression .start (.call .start "ecrire" (es.map Expr.unplaced)),
          [m].map Token.unplaced) := by
      rw [places, outcome_print rfl, bind_of_ok all, List.map_singleton, mark]
      rfl
    obtain ⟨s', read, same⟩ := statement_placed whole
    exact ⟨us, m, finish, s', congrArg Token.kind mark, tokens, read, same.trans unplaced.symm⟩

theorem plain_of_all {ts : List Token}
    (h : (ts.all fun t => match t.payload with | .float x => decide x.Plain | _ => true) = true) :
    ∀ t ∈ ts, ∀ x, t.payload = .float x → x.Plain := by
  intro t ht x payload
  have found := List.all_eq_true.mp h t ht
  rw [payload] at found
  exact of_decide_eq_true found

theorem print_of_texts {t nl : Token} {ts : List Token} {texts : List String}
    (word : t.kind = .keyword .ecrire)
    (found : (outcome (lineOfExpressions (ts ++ [nl]))).map
      (fun found => (found.1.map Expr.text, found.2)) = .ok (texts, [nl])) :
    ∃ es, es.map Expr.text = texts ∧ outcome (statement (t :: (ts ++ [nl]))) =
      .ok (.expression t.position (.call t.position "ecrire" es), [nl]) := by
  cases values : outcome (lineOfExpressions (ts ++ [nl])) with
  | error failure =>
    rw [values] at found
    cases found
  | ok result =>
    obtain ⟨es, us⟩ := result
    rw [values] at found
    obtain ⟨same, rfl⟩ := Prod.mk.inj (Except.ok.inj found)
    exact ⟨es, same, (outcome_print word (ts ++ [nl])).trans (bind_of_ok values _)⟩

theorem print_rereads_difference :
    ∃ t ts nl finish es, tokenize "ecrire a-1 b\n" = .ok (t :: (ts ++ [nl]) ++ [.eof finish]) ∧
      outcome (statement (t :: (ts ++ [nl]))) =
        .ok (.expression t.position (.call t.position "ecrire" es), [nl]) ∧
      es.map Expr.text = ["(a - 1)", "b"] ∧
        Rereads (.expression t.position (.call t.position "ecrire" es)) := by
  let t : Token := ⟨.keyword .ecrire, .str "ecrire", ⟨1, 1⟩⟩
  let nl : Token := .newline ⟨1, 13⟩
  let ts : List Token := [⟨.identifier, .str "a", ⟨1, 8⟩⟩, ⟨.symbol .minus, .str "-", ⟨1, 9⟩⟩,
    ⟨.number, .int 1, ⟨1, 10⟩⟩, ⟨.identifier, .str "b", ⟨1, 12⟩⟩]
  have tokens : tokenize "ecrire a-1 b\n" = .ok (t :: (ts ++ [nl]) ++ [.eof ⟨2, 1⟩]) := by
    decide +kernel
  have printable : Printable (t :: (ts ++ [nl])) :=
    { read u hu := tokenize_isRead tokens u (List.mem_append_left [.eof ⟨2, 1⟩] hu)
      plain := plain_of_all (by decide)
      draws := not_drawsOnce (by decide) }
  have found : (outcome (lineOfExpressions (ts ++ [nl]))).map
      (fun found => (found.1.map Expr.text, found.2)) = .ok (["(a - 1)", "b"], [nl]) := by
    decide +kernel
  obtain ⟨es, texts, read⟩ := print_of_texts (t := t) rfl found
  refine ⟨t, ts, nl, ⟨2, 1⟩, es, tokens, read, texts, (print_rereads rfl printable read).mpr ?_⟩
  intro e he
  have printed := List.mem_map_of_mem (f := Expr.text) he
  rw [List.map_tail, texts, List.tail_cons, List.mem_singleton] at printed
  rw [printed]
  decide

theorem print_rereads_sum :
    ∃ t ts nl finish es, tokenize "ecrire a b + c\n" = .ok (t :: (ts ++ [nl]) ++ [.eof finish]) ∧
      outcome (statement (t :: (ts ++ [nl]))) =
        .ok (.expression t.position (.call t.position "ecrire" es), [nl]) ∧
      (∀ t ∈ ts, t.kind = .identifier ∨ t.kind = .symbol .plus) ∧
        es.map Expr.text = ["a", "(b + c)"] ∧
          ¬Rereads (.expression t.position (.call t.position "ecrire" es)) := by
  let t : Token := ⟨.keyword .ecrire, .str "ecrire", ⟨1, 1⟩⟩
  let nl : Token := .newline ⟨1, 15⟩
  let ts : List Token := [⟨.identifier, .str "a", ⟨1, 8⟩⟩, ⟨.identifier, .str "b", ⟨1, 10⟩⟩,
    ⟨.symbol .plus, .str "+", ⟨1, 12⟩⟩, ⟨.identifier, .str "c", ⟨1, 14⟩⟩]
  have tokens : tokenize "ecrire a b + c\n" = .ok (t :: (ts ++ [nl]) ++ [.eof ⟨2, 1⟩]) := by
    decide +kernel
  have found : (outcome (lineOfExpressions (ts ++ [nl]))).map
      (fun found => (found.1.map Expr.text, found.2)) = .ok (["a", "(b + c)"], [nl]) := by
    decide +kernel
  obtain ⟨es, texts, read⟩ := print_of_texts (t := t) rfl found
  refine ⟨t, ts, nl, ⟨2, 1⟩, es, tokens, read, by decide, texts, ?_⟩
  let us : List Token := [t, ⟨.identifier, .str "a", ⟨1, 8⟩⟩,
    ⟨.symbol .leftParen, .str "(", ⟨1, 10⟩⟩, ⟨.identifier, .str "b", ⟨1, 11⟩⟩,
    ⟨.symbol .plus, .str "+", ⟨1, 13⟩⟩, ⟨.identifier, .str "c", ⟨1, 15⟩⟩,
    ⟨.symbol .rightParen, .str ")", ⟨1, 16⟩⟩]
  have again : tokenize "ecrire a (b + c)\n" =
      .ok (us ++ [.newline ⟨1, 17⟩, .eof ⟨2, 1⟩]) := by decide +kernel
  have called : (outcome (statement (us ++ [.newline ⟨1, 17⟩]))).map (·.1.text 0) =
      .ok "ecrire a((b + c))\n" := by decide +kernel
  have text : (Stmt.expression t.position (.call t.position "ecrire" es)).text 0 =
      "ecrire a (b + c)\n" := by
    rw [Stmt.text, Stmt.expressionText, if_pos rfl, texts_eq_map, texts]
    decide
  rintro ⟨vs, m, finish, s', -, tokens', read', same⟩
  rw [text] at tokens'
  obtain ⟨rfl, ended⟩ := List.append_inj' (Except.ok.inj (again.symm.trans tokens')) rfl
  obtain ⟨rfl, -⟩ := List.cons.inj ended
  have text' : s'.text 0 = "ecrire a((b + c))\n" := by
    rw [read'] at called
    exact Except.ok.inj called
  have alike : s'.text 0 = "ecrire a (b + c)\n" := by
    rw [← text, ← Stmt.text_relocate (fun _ => .start) 0 s',
      ← Stmt.text_relocate (fun _ => .start) 0 (.expression _ _)]
    exact congrArg (Stmt.text 0) same
  exact absurd (text'.symm.trans alike) (by decide)

end Grammar

end Miaou
