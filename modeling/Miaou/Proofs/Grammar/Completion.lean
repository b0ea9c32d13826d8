import Miaou.Proofs.Grammar.Spelling

/-!
The tokens of a written expression are read as this expression. An operand ends where the token
behind it goes on with a looser level, so that each level stops where the next one takes over.
-/

namespace Miaou.Grammar

open Piece

/-- The rank of the level at which a token of this kind goes on behind an operand. -/
def goesOn? : Kind → Option Nat
  | .symbol .leftParen | .symbol .leftBracket | .symbol .dot => some 1
  | .symbol .starStar => some 3
  | .symbol .star | .symbol .slash | .symbol .slashSlash | .symbol .percent => some 4
  | .symbol .plus | .symbol .minus => some 5
  | .symbol .assign | .symbol .equal | .symbol .notEqual | .symbol .less | .symbol .greater
  | .symbol .lessEqual | .symbol .greaterEqual => some 6
  | .keyword .et => some 8
  | .keyword .ou => some 9
  | _ => none

/-- What comes next goes on with no expression of this rank or a tighter one. -/
def Halts (rank : Nat) (ts : List Token) : Prop :=
  ∀ t ∈ ts.head?, ∀ r ∈ goesOn? t.kind, rank < r

@[simp] theorem halts_cons {rank : Nat} {t : Token} {ts : List Token} :
    Halts rank (t :: ts) ↔ ∀ r ∈ goesOn? t.kind, rank < r := by
  simp [Halts]

theorem halts_of_none {t : Token} (h : goesOn? t.kind = none) (rank : Nat) (ts : List Token) :
    Halts rank (t :: ts) := by
  rw [halts_cons, h]
  exact fun r hr => nomatch hr

theorem Halts.mono {rank rank' : Nat} {ts : List Token} (h : Halts rank' ts)
    (le : rank ≤ rank') : Halts rank ts :=
  fun t ht r hr => Nat.lt_of_le_of_lt le (h t ht r hr)

theorem Halts.lacks {rank r : Nat} {kind : Kind} {ts : List Token} (h : Halts rank ts)
    (found : goesOn? kind = some r) (le : r ≤ rank) : Lacks kind ts := by
  rintro t ht rfl
  exact absurd (h t ht r found) (Nat.not_lt.mpr le)

theorem goesOn?_operator {c : Chain} {kind : Kind} {op : BinaryOp}
    (h : c.operator? kind = some op) : goesOn? kind = some (Level.chain c).rank := by
  unfold Chain.operator? at h
  split at h <;> first | rfl | nomatch h

theorem operator?_kind {c : Chain} {op : BinaryOp} (h : op.chain? = some c) :
    c.operator? op.kind = some op := by
  cases op <;> cases h <;> rfl

theorem Halts.operator? {c : Chain} {ts : List Token} (h : Halts (Level.chain c).rank ts) :
    ∀ t ∈ ts.head?, c.operator? t.kind = none := by
  intro t ht
  cases found : c.operator? t.kind with
  | none => rfl
  | some op => exact absurd (h t ht _ (goesOn?_operator found)) (Nat.lt_irrefl _)

/-- The tokens of an expression at a level are read as it. Levels that fold what follows into the
expression hand it over to their reader; the others only ask that it does not go on with it. -/
def Completes : Level → Expr → List Token → Prop
  | .chain c, e, gs => ∀ e' rest rest', Halts c.operands.rank rest →
      Derives (.operations c e e') rest rest' →
      Derives (.expression (.chain c) e') (gs ++ rest) rest'
  | .postfixes, e, gs => ∀ e' rest rest', Derives (.accesses e e') rest rest' →
      Derives (.expression .postfixes e') (gs ++ rest) rest'
  | .negation, e, gs => ∀ rest, Halts 7 rest → Derives (.expression .negation e) (gs ++ rest) rest
  | .power, e, gs => ∀ rest, Halts 3 rest → Derives (.expression .power e) (gs ++ rest) rest
  | .sign, e, gs => ∀ rest, Halts 2 rest → Derives (.expression .sign e) (gs ++ rest) rest

theorem Completes.derives {l : Level} {e : Expr} {gs : List Token} (h : Completes l e gs)
    {rest : List Token} (halts : Halts l.rank rest) :
    Derives (.expression l e) (gs ++ rest) rest := by
  cases l with
  | chain c =>
    exact h e rest rest (halts.mono (Nat.le_of_lt (Level.rank_operands c)))
      (.operationsEnd halts.operator?)
  | postfixes =>
    refine h e rest rest (.accessesEnd ?_ ?_ ?_)
    · exact halts.lacks (r := 1) rfl (Nat.le_refl _)
    · exact halts.lacks (r := 1) rfl (Nat.le_refl _)
    · exact halts.lacks (r := 1) rfl (Nat.le_refl _)
  | negation => exact h rest halts
  | power => exact h rest halts
  | sign => exact h rest halts

theorem Completes.next {l : Level} {e : Expr} {cs : List Char} {gs : List Token}
    (opening : Opening l e cs gs) (h : Completes l e gs) : Completes l.next e gs := by
  obtain ⟨t, head, opensAt⟩ := opening.token
  have chain {c : Chain} (same : c.operands = l) : Completes (.chain c) e gs := by
    subst same
    exact fun e' rest rest' halts more => .chain (h.derives halts) more
  cases l with
  | postfixes =>
    intro rest halts
    refine .unsigned ?_ (h.derives (halts.mono (by decide)))
    intro u hu
    cases Option.mem_unique hu (Text.mem_head?_append head rest)
    rcases opensAt with opens | ⟨-, high⟩ | ⟨-, high⟩
    · exact sign?_of_opens opens
    · exact absurd high (by decide)
    · exact absurd high (by decide)
  | sign =>
    intro rest halts
    exact .power (h.derives (halts.mono (by decide)))
      (.exponentEnd (halts.lacks (r := 3) rfl (Nat.le_refl _)))
  | power => exact chain rfl
  | negation => exact chain rfl
  | chain c =>
    cases c with
    | comparison =>
      intro rest halts
      refine .affirmed ?_ (h.derives (halts.mono (by decide)))
      intro u hu
      cases Option.mem_unique hu (Text.mem_head?_append head rest)
      rcases opensAt with opens | ⟨-, high⟩ | ⟨mark, -⟩
      · exact kind_ne_non opens
      · exact absurd high (by decide)
      · intro same
        rw [same] at mark
        nomatch mark
    | disjunction => exact h
    | conjunction => exact chain rfl
    | sum => exact chain rfl
    | product => exact chain rfl

/-- The tokens of a phrase are read as it. -/
def Phrase.Completes : Phrase → List Token → Prop
  | .expression l e, gs => Grammar.Completes l e gs
  | .arguments es, gs => ∀ rest, Derives (.arguments es) (gs ++ rest) rest
  | .moreArguments es, gs => ∀ rest, Derives (.moreArguments es) (gs ++ rest) rest
  | .entries pairs, gs => ∀ rest, Derives (.entries pairs) (gs ++ rest) rest
  | .moreEntries pairs, gs => ∀ rest, Derives (.moreEntries pairs) (gs ++ rest) rest
  | _, _ => True

theorem OpensAt.ne_rightParen {l : Level} {t : Token} (h : OpensAt l t) :
    t.kind ≠ .symbol .rightParen := by
  intro same
  rcases h with opens | ⟨word, -⟩ | ⟨mark, -⟩
  · simp [Grammar.opens, same, literal?] at opens
  · rw [same] at word
    cases word
  · rw [same] at mark
    cases mark

theorem Opening.cons {l : Level} {e : Expr} {cs : List Char} {gs : List Token}
    (h : Opening l e cs gs) : ∃ t hs, gs = t :: hs ∧ t.kind ≠ .symbol .rightParen := by
  obtain ⟨t, head, opensAt⟩ := h.token
  cases gs with
  | nil => cases head
  | cons u hs =>
    cases head
    exact ⟨t, hs, rfl, opensAt.ne_rightParen⟩

theorem halts_moreArguments {es : List Expr} {cs : List Char} {gs : List Token}
    (h : Spells (.moreArguments es) cs gs) (rank : Nat) (rest : List Token) :
    Halts rank (gs ++ rest) := by
  cases h with
  | argumentsEnd => exact halts_of_none rfl rank _
  | argumentsMore first more => exact halts_of_none rfl rank _

theorem halts_moreEntries {pairs : List (Expr × Expr)} {cs : List Char} {gs : List Token}
    (h : Spells (.moreEntries pairs) cs gs) (rank : Nat) (rest : List Token) :
    Halts rank (gs ++ rest) := by
  cases h with
  | entriesEnd => exact halts_of_none rfl rank _
  | entriesMore first second more => exact halts_of_none rfl rank _

def passes (kind : Kind) : Bool :=
  !(opensGroup kind || closesGroup kind || kind = .symbol .comma || kind = .layout .newline)

theorem commaAhead_passes {t : Token} (h : passes t.kind = true) (depth : Nat)
    (rest : List Token) : commaAhead depth (t :: rest) = commaAhead depth rest := by
  simp only [passes, Bool.not_eq_true', Bool.or_eq_false_iff, decide_eq_false_iff_not] at h
  simp [commaAhead, h]

theorem commaAhead_opens {t : Token} (h : opensGroup t.kind = true) (depth : Nat)
    (rest : List Token) : commaAhead depth (t :: rest) = commaAhead (depth + 1) rest := by
  simp [commaAhead, h]

theorem commaAhead_closes {t : Token} (h : closesGroup t.kind = true) (depth : Nat)
    (rest : List Token) : commaAhead (depth + 1) (t :: rest) = commaAhead depth rest := by
  have other : opensGroup t.kind = false := by
    simp only [closesGroup, Bool.or_eq_true, decide_eq_true_eq] at h
    rcases h with h | h <;> rw [h] <;> rfl
  simp [commaAhead, other, h]

theorem commaAhead_comma (depth : Nat) (rest : List Token) :
    commaAhead (depth + 1) (.sign .comma :: rest) = commaAhead (depth + 1) rest := by
  simp [commaAhead, Token.sign, opensGroup, closesGroup]

def Phrase.Passed : Phrase → List Token → Prop
  | .expression _ _, gs => ∀ depth rest, commaAhead depth (gs ++ rest) = commaAhead depth rest
  | _, gs => ∀ depth rest, commaAhead (depth + 1) (gs ++ rest) = commaAhead depth rest

@[simp] theorem passes_operator (op : BinaryOp) : passes op.token.kind = true := by
  cases op <;> rfl

theorem passes_attribute {kind : Kind} (h : namesAttribute kind = true) : passes kind = true := by
  simp only [namesAttribute, Bool.or_eq_true, decide_eq_true_eq] at h
  rcases h with (rfl | rfl) | h
  · rfl
  · rfl
  · cases kind <;> first | rfl | nomatch h

theorem spells_passed {phrase : Phrase} {cs : List Char} {gs : List Token}
    (h : Spells phrase cs gs) : phrase.Passed gs := by
  have between {t : Token} {gs : List Token} (plain : passes t.kind = true)
      (inner : ∀ depth rest, commaAhead depth (gs ++ rest) = commaAhead depth rest) (depth : Nat)
      (rest : List Token) : commaAhead depth (t :: gs ++ rest) = commaAhead depth rest := by
    rw [List.cons_append, commaAhead_passes plain, inner]
  have group {t : Token} {gs : List Token} (opens : opensGroup t.kind = true)
      (inner : ∀ depth rest, commaAhead (depth + 1) (gs ++ rest) = commaAhead depth rest)
      (depth : Nat) (rest : List Token) :
      commaAhead depth (t :: gs ++ rest) = commaAhead depth rest := by
    rw [List.cons_append, commaAhead_opens opens, inner]
  have after {gs hs : List Token}
      (first : ∀ depth rest, commaAhead depth (gs ++ rest) = commaAhead depth rest)
      (second : ∀ depth rest, commaAhead depth (hs ++ rest) = commaAhead depth rest) (depth : Nat)
      (rest : List Token) : commaAhead depth (gs ++ hs ++ rest) = commaAhead depth rest := by
    rw [List.append_assoc, first, second]
  have closed {t : Token} {gs : List Token} (closes : closesGroup t.kind = true)
      (inner : ∀ depth rest, commaAhead depth (gs ++ rest) = commaAhead depth rest) (depth : Nat)
      (rest : List Token) : commaAhead (depth + 1) (gs ++ [t] ++ rest) = commaAhead depth rest := by
    rw [List.append_assoc, inner]
    exact commaAhead_closes closes depth rest
  have none (depth : Nat) (rest : List Token) :
      commaAhead depth ([] ++ rest) = commaAhead depth rest := rfl
  induction h with
  | @literal value cs stands =>
    exact between (by cases value <;> rfl) none
  | name named => exact between rfl none
  | compteur => exact between rfl none
  | lift inner ih => exact ih
  | group inner ih => exact group rfl (closed rfl ih)
  | not operand ih => exact between rfl ih
  | @sign s op e cs gs mark operand ih =>
    refine between ?_ ih
    cases s <;> first | rfl | nomatch mark
  | operation mark first second ih ih' => exact after ih (between (passes_operator _) ih')
  | power first second ih ih' => exact after ih (between rfl ih')
  | call path first given ih ih' => exact after ih (group rfl ih')
  | item first inner ih ih' => exact after ih (group rfl (closed rfl ih'))
  | «attribute» named names first ih =>
    exact after ih (between rfl (between (passes_attribute names) none))
  | list given ih => exact between rfl (group rfl ih)
  | dict given ih => exact between rfl (group rfl ih)
  | builtin given ih => exact between rfl (group rfl ih)
  | random size given ih => exact between rfl (group rfl ih)
  | argumentsNone => exact fun depth rest => commaAhead_closes rfl depth rest
  | argumentsEnd => exact fun depth rest => commaAhead_closes rfl depth rest
  | entriesNone => exact fun depth rest => commaAhead_closes rfl depth rest
  | entriesEnd => exact fun depth rest => commaAhead_closes rfl depth rest
  | argument first more ih ih' =>
    intro depth rest
    rw [List.append_assoc, ih, ih']
  | argumentsMore first more ih ih' =>
    intro depth rest
    rw [List.cons_append, commaAhead_comma, List.append_assoc, ih, ih']
  | entry first second more ih ih' ih'' =>
    intro depth rest
    rw [List.append_assoc, ih, List.cons_append, commaAhead_passes rfl, List.append_assoc, ih',
      ih'']
  | entriesMore first second more ih ih' ih'' =>
    intro depth rest
    rw [List.cons_append, commaAhead_comma, List.append_assoc, ih, List.cons_append,
      commaAhead_passes rfl, List.append_assoc, ih', ih'']

theorem spells_listsArguments {given : List Expr} {cs : List Char} {gs : List Token}
    (h : Spells (.arguments given) cs gs) (size : given.length ≠ 1) (rest : List Token) :
    listsArguments (gs ++ rest) = true := by
  cases h with
  | argumentsNone => rfl
  | @argument e es cs ds gs hs first more =>
    cases more with
    | argumentsEnd => exact absurd rfl size
    | argumentsMore second others =>
      have opening := spells_opening first
      obtain ⟨t, us, rfl, -⟩ := opening.cons
      rw [List.append_assoc, List.cons_append, listsArguments, Bool.or_eq_true]
      right
      rw [← List.cons_append, spells_passed first]
      rfl

@[simp] theorem Literal.position_token (value : Literal) : value.token.position = .start := by
  cases value <;> rfl

@[simp] theorem literal?_token (value : Literal) :
    literal? value.token.kind value.token.payload = some value := by
  cases value <;> rfl

theorem completes_primary {e : Expr} {gs : List Token}
    (read : ∀ rest, Derives (.primary e) (gs ++ rest) rest) : Completes .postfixes e gs :=
  fun _ rest _ more => .postfixes (read rest) more

theorem derives_of_completes {l : Level} {e : Expr} {gs : List Token}
    (h : (Phrase.expression l e).Completes gs) {rest : List Token} (halts : Halts l.rank rest) :
    Derives (.expression l e) (gs ++ rest) rest := Completes.derives h halts

theorem lexeme_word {kind : Kind} (h : namesAttribute kind = true) (w : String) :
    (Token.word kind w).lexeme = w := by
  cases kind <;> first | rfl | nomatch h

theorem spells_completes {phrase : Phrase} {cs : List Char} {gs : List Token}
    (h : Spells phrase cs gs) : phrase.Completes gs := by
  induction h with
  | @literal value cs stands =>
    refine completes_primary fun rest => ?_
    have read := @Derives.literal _ _ rest (literal?_token value)
    rwa [Literal.position_token] at read
  | @name w named =>
    exact completes_primary fun rest => @Derives.identifier (.word .identifier w) rest rfl
  | compteur =>
    exact completes_primary fun rest =>
      @Derives.compteur (.word (.keyword .compteur) "compteur") rest rfl
  | lift inner ih => exact Completes.next (spells_opening inner) ih
  | @group e cs gs inner ih =>
    refine completes_primary fun rest => ?_
    have whole := derives_of_completes ih (@halts_of_none (.sign .rightParen) rfl 9 rest)
    rw [List.cons_append, List.append_assoc]
    exact .group rfl whole rfl
  | not operand ih =>
    exact fun rest halts =>
      @Derives.not (.word (.keyword .non) "non") _ _ _ rfl (derives_of_completes ih halts)
  | @sign s op e cs gs mark operand ih =>
    exact fun rest halts => @Derives.sign (.sign s) _ _ _ _ mark (derives_of_completes ih halts)
  | @operation c op left right cs ds gs hs mark first second ih ih' =>
    intro e' rest rest' halts more
    have start := (spells_opening first).position
    have operator := operator?_kind mark
    rw [List.append_assoc]
    refine ih e' _ rest' ?_ (.operation operator (derives_of_completes ih' halts) ?_)
    · refine halts_cons.mpr fun r found => ?_
      rw [show op.token.kind = op.kind from rfl, goesOn?_operator operator] at found
      cases found
      exact Level.rank_operands c
    · rwa [start]
  | power first second ih ih' =>
    intro rest halts
    have start := (spells_opening first).position
    rw [List.append_assoc]
    refine .power (derives_of_completes ih (halts_cons.mpr fun r found => ?_)) ?_
    · cases found
      decide
    · rw [← start]
      exact .exponent rfl (derives_of_completes ih' halts)
  | call path first given ih ih' =>
    intro e' rest rest' more
    have start := (spells_opening first).position
    rw [List.append_assoc]
    refine ih e' _ rest' (.call rfl path (ih' rest) ?_)
    rwa [start]
  | item first inner ih ih' =>
    intro e' rest rest' more
    have start := (spells_opening first).position
    have whole := derives_of_completes ih' (@halts_of_none (.sign .rightBracket) rfl 9 rest)
    rw [List.append_assoc, List.cons_append, List.append_assoc]
    refine ih e' _ rest' (.item rfl whole rfl ?_)
    rwa [start]
  | @«attribute» object w kind cs gs named names first ih =>
    intro e' rest rest' more
    have start := (spells_opening first).position
    rw [List.append_assoc]
    refine ih e' _ rest' (@Derives.attribute (.sign .dot) (.word kind w) _ _ rest _ rfl names ?_)
    rw [start, lexeme_word names]
    exact more
  | list given ih =>
    exact completes_primary fun rest =>
      @Derives.list (.word (.keyword .liste) "liste") (.sign .leftParen) _ _ _ rfl rfl (ih rest)
  | dict given ih =>
    exact completes_primary fun rest =>
      @Derives.dict (.word (.keyword .dictionnaire) "dictionnaire") (.sign .leftParen) _ _ _ rfl rfl
        (ih rest)
  | @builtin function es cs gs given ih =>
    exact completes_primary fun rest =>
      @Derives.builtin (.word (.builtin function) function.function) (.sign .leftParen) _ _ _ _ rfl
        rfl (ih rest)
  | @random given cs gs size group ih =>
    refine completes_primary fun rest => ?_
    have lists := spells_listsArguments group size rest
    refine @Derives.random (.word (.keyword .aleatoire) "aleatoire") _ _ (gs ++ rest) _ rfl ?_
      (ih rest)
    simp [argumentGroup?, Token.sign, lists]
  | argumentsNone => exact fun rest => .argumentsNone rfl
  | argumentsEnd => exact fun rest => .argumentsEnd rfl
  | entriesNone => exact fun rest => .entriesNone rfl
  | entriesEnd => exact fun rest => .entriesEnd rfl
  | argument first more ih ih' =>
    intro rest
    have whole := derives_of_completes ih (halts_moreArguments more 9 rest)
    obtain ⟨t, us, rfl, other⟩ := (spells_opening first).cons
    rw [List.append_assoc]
    exact .argument other whole (ih' rest)
  | argumentsMore first more ih ih' =>
    intro rest
    have whole := derives_of_completes ih (halts_moreArguments more 9 rest)
    obtain ⟨t, us, rfl, other⟩ := (spells_opening first).cons
    rw [List.cons_append, List.append_assoc]
    exact .argumentsMore rfl (.argument other whole (ih' rest))
  | @entry key value pairs cs ds es gs hs is first second more ih ih' ih'' =>
    intro rest
    have whole := derives_of_completes ih
      (@halts_of_none (.sign .colon) rfl 9 (hs ++ is ++ rest))
    have behind := derives_of_completes ih' (halts_moreEntries more 9 rest)
    obtain ⟨t, us, rfl, other⟩ := (spells_opening first).cons
    rw [List.append_assoc]
    refine .entry other whole rfl ?_ (ih'' rest)
    rwa [List.append_assoc]
  | @entriesMore key value pairs cs ds es gs hs is first second more ih ih' ih'' =>
    intro rest
    have whole := derives_of_completes ih
      (@halts_of_none (.sign .colon) rfl 9 (hs ++ is ++ rest))
    have behind := derives_of_completes ih' (halts_moreEntries more 9 rest)
    obtain ⟨t, us, rfl, other⟩ := (spells_opening first).cons
    rw [List.cons_append, List.append_assoc]
    refine .entriesMore rfl (.entry other whole rfl ?_ (ih'' rest))
    rwa [List.append_assoc]

end Miaou.Grammar
