import Miaou.Proofs.Grammar.Derivation
import Miaou.Proofs.Token.Yield

/-!
Written expressions. `Spells phrase cs gs` builds the text `cs` of an expression together with its
tokens `gs`, level by level: an operand stands at a level its operator allows, or in parentheses.
Whatever is built this way is read as these tokens.
-/

namespace Miaou

def BinaryOp.kind : BinaryOp → Kind
  | .or => .keyword .ou
  | .and => .keyword .et
  | .eq => .symbol .assign
  | .eqEq => .symbol .equal
  | .notEq => .symbol .notEqual
  | .lt => .symbol .less
  | .gt => .symbol .greater
  | .ltEq => .symbol .lessEqual
  | .gtEq => .symbol .greaterEqual
  | .add => .symbol .plus
  | .sub => .symbol .minus
  | .mul => .symbol .star
  | .div => .symbol .slash
  | .floorDiv => .symbol .slashSlash
  | .mod => .symbol .percent
  | .pow => .symbol .starStar

def BinaryOp.token (op : BinaryOp) : Token := ⟨op.kind, .str op.text, .start⟩

def BinaryOp.chain? : BinaryOp → Option Grammar.Chain
  | .or => some .disjunction
  | .and => some .conjunction
  | .eq | .eqEq | .notEq | .lt | .gt | .ltEq | .gtEq => some .comparison
  | .add | .sub => some .sum
  | .mul | .div | .floorDiv | .mod => some .product
  | .pow => none

def Literal.token : Literal → Token
  | .int n => ⟨.number, .int n, .start⟩
  | .float x => ⟨.number, .float x, .start⟩
  | .str s => ⟨.string, .str s, .start⟩
  | .bool b => ⟨.boolean, .bool b, .start⟩

namespace Grammar

open Piece Text

def Level.next : Level → Level
  | .postfixes => .sign
  | .sign => .power
  | .power => .chain .product
  | .chain .product => .chain .sum
  | .chain .sum => .chain .comparison
  | .chain .comparison => .negation
  | .negation => .chain .conjunction
  | .chain .conjunction => .chain .disjunction
  | .chain .disjunction => .chain .disjunction

inductive Spells : Phrase → List Char → List Token → Prop where
  | literal {value : Literal} {cs : List Char} (stands : Stands cs value.token) :
      Spells (.expression .postfixes (.literal .start value)) cs [value.token]
  | name {w : String} (named : Named .identifier w) :
      Spells (.expression .postfixes (.identifier .start w)) w.toList [.word .identifier w]
  | compteur :
      Spells (.expression .postfixes (.identifier .start "compteur")) "compteur".toList
        [.word (.keyword .compteur) "compteur"]
  | lift {l : Level} {e : Expr} {cs : List Char} {gs : List Token}
      (inner : Spells (.expression l e) cs gs) : Spells (.expression l.next e) cs gs
  | group {e : Expr} {cs : List Char} {gs : List Token}
      (inner : Spells (.expression .lowest e) cs gs) :
      Spells (.expression .postfixes e) ('(' :: (cs ++ [')']))
        (.sign .leftParen :: (gs ++ [.sign .rightParen]))
  | not {e : Expr} {cs : List Char} {gs : List Token}
      (operand : Spells (.expression .negation e) cs gs) :
      Spells (.expression .negation (.unary .start .not e)) ("non".toList ++ ' ' :: cs)
        (.word (.keyword .non) "non" :: gs)
  | sign {s : Symbol} {op : UnaryOp} {e : Expr} {cs : List Char} {gs : List Token}
      (mark : sign? (.symbol s) = some op) (operand : Spells (.expression .sign e) cs gs) :
      Spells (.expression .sign (.unary .start op e)) (s.text.toList ++ cs) (.sign s :: gs)
  | operation {c : Chain} {op : BinaryOp} {left right : Expr} {cs ds : List Char}
      {gs hs : List Token} (mark : op.chain? = some c)
      (first : Spells (.expression (.chain c) left) cs gs)
      (second : Spells (.expression c.operands right) ds hs) :
      Spells (.expression (.chain c) (.binary .start op left right))
        (cs ++ ' ' :: (op.text.toList ++ ' ' :: ds)) (gs ++ op.token :: hs)
  | power {base e : Expr} {cs ds : List Char} {gs hs : List Token}
      (first : Spells (.expression .sign base) cs gs)
      (second : Spells (.expression .power e) ds hs) :
      Spells (.expression .power (.binary .start .pow base e))
        (cs ++ ' ' :: (BinaryOp.pow.text.toList ++ ' ' :: ds)) (gs ++ BinaryOp.pow.token :: hs)
  | call {object : Expr} {function : String} {given : List Expr} {cs ds : List Char}
      {gs hs : List Token} (path : object.path? = some function)
      (first : Spells (.expression .postfixes object) cs gs)
      (group : Spells (.arguments given) ds hs) :
      Spells (.expression .postfixes (.call .start function given)) (cs ++ '(' :: ds)
        (gs ++ .sign .leftParen :: hs)
  | item {object index : Expr} {cs ds : List Char} {gs hs : List Token}
      (first : Spells (.expression .postfixes object) cs gs)
      (inner : Spells (.expression .lowest index) ds hs) :
      Spells (.expression .postfixes (.item .start object index)) (cs ++ '[' :: (ds ++ [']']))
        (gs ++ .sign .leftBracket :: (hs ++ [.sign .rightBracket]))
  | attribute {object : Expr} {w : String} {kind : Kind} {cs : List Char} {gs : List Token}
      (named : Named kind w) (names : namesAttribute kind = true)
      (first : Spells (.expression .postfixes object) cs gs) :
      Spells (.expression .postfixes (.attribute .start object w)) (cs ++ '.' :: w.toList)
        (gs ++ [.sign .dot, .word kind w])
  | list {items : List Expr} {cs : List Char} {gs : List Token}
      (group : Spells (.arguments items) cs gs) :
      Spells (.expression .postfixes (.list .start items)) ("liste".toList ++ '(' :: cs)
        (.word (.keyword .liste) "liste" :: .sign .leftParen :: gs)
  | dict {pairs : List (Expr × Expr)} {cs : List Char} {gs : List Token}
      (group : Spells (.entries pairs) cs gs) :
      Spells (.expression .postfixes (.dict .start pairs)) ("dictionnaire".toList ++ '(' :: cs)
        (.word (.keyword .dictionnaire) "dictionnaire" :: .sign .leftParen :: gs)
  | builtin {function : Builtin} {given : List Expr} {cs : List Char} {gs : List Token}
      (group : Spells (.arguments given) cs gs) :
      Spells (.expression .postfixes (.call .start function.function given))
        (function.function.toList ++ '(' :: cs)
        (.word (.builtin function) function.function :: .sign .leftParen :: gs)
  | random {given : List Expr} {cs : List Char} {gs : List Token} (size : given.length ≠ 1)
      (group : Spells (.arguments given) cs gs) :
      Spells (.expression .postfixes (.call .start "aleatoire" given))
        ("aleatoire".toList ++ '(' :: cs)
        (.word (.keyword .aleatoire) "aleatoire" :: .sign .leftParen :: gs)
  | argumentsNone : Spells (.arguments []) [')'] [.sign .rightParen]
  | argument {e : Expr} {es : List Expr} {cs ds : List Char} {gs hs : List Token}
      (first : Spells (.expression .lowest e) cs gs) (more : Spells (.moreArguments es) ds hs) :
      Spells (.arguments (e :: es)) (cs ++ ds) (gs ++ hs)
  | argumentsEnd : Spells (.moreArguments []) [')'] [.sign .rightParen]
  | argumentsMore {e : Expr} {es : List Expr} {cs ds : List Char} {gs hs : List Token}
      (first : Spells (.expression .lowest e) cs gs) (more : Spells (.moreArguments es) ds hs) :
      Spells (.moreArguments (e :: es)) (',' :: ' ' :: (cs ++ ds)) (.sign .comma :: (gs ++ hs))
  | entriesNone : Spells (.entries []) [')'] [.sign .rightParen]
  | entry {key value : Expr} {pairs : List (Expr × Expr)} {cs ds es : List Char}
      {gs hs is : List Token} (first : Spells (.expression .lowest key) cs gs)
      (second : Spells (.expression .lowest value) ds hs)
      (more : Spells (.moreEntries pairs) es is) :
      Spells (.entries ((key, value) :: pairs)) (cs ++ ':' :: ' ' :: (ds ++ es))
        (gs ++ .sign .colon :: (hs ++ is))
  | entriesEnd : Spells (.moreEntries []) [')'] [.sign .rightParen]
  | entriesMore {key value : Expr} {pairs : List (Expr × Expr)} {cs ds es : List Char}
      {gs hs is : List Token} (first : Spells (.expression .lowest key) cs gs)
      (second : Spells (.expression .lowest value) ds hs)
      (more : Spells (.moreEntries pairs) es is) :
      Spells (.moreEntries ((key, value) :: pairs)) (',' :: ' ' :: (cs ++ ':' :: ' ' :: (ds ++ es)))
        (.sign .comma :: (gs ++ .sign .colon :: (hs ++ is)))

/-! The text of an expression is read as its tokens -/

theorem yields_mark (s : Symbol) (simple : ∀ c, Lexeme.grows s c = false) {ds rest : List Char}
    {hs : List Token} (more : Yields ds hs rest) :
    Yields (s.text.toList ++ ds) (.sign s :: hs) rest :=
  yields_append (yields_symbol s fun c _ => simple c) more

theorem yields_space {ds rest : List Char} {hs : List Token} (more : Yields ds hs rest) :
    Yields (' ' :: ds) hs rest := yields_append (yields_blank _) more

theorem yields_spaced (s : Symbol) {rest : List Char} :
    Yields s.text.toList [.sign s] (' ' :: rest) :=
  yields_symbol s (by simp)

theorem ends_space (cs : List Char) : Ends (' ' :: cs) := ends_cons (by decide) (by decide) cs

theorem ends_paren (cs : List Char) : Ends ('(' :: cs) := ends_cons (by decide) (by decide) cs

theorem yields_operator (op : BinaryOp) {ds rest : List Char} {hs : List Token}
    (more : Yields ds hs rest) :
    Yields (' ' :: (op.text.toList ++ ' ' :: ds)) (op.token :: hs) rest := by
  refine yields_space
    (@yields_append op.text.toList (' ' :: ds) rest [op.token] hs ?_ (yields_space more))
  have stop := (ends_space (ds ++ rest)).1
  cases op
  case or =>
    exact yields_reserved (by decide) (by decide) (by decide) (fused?_single (by decide) _) stop
  case and =>
    exact yields_reserved (by decide) (by decide) (by decide) (fused?_single (by decide) _) stop
  case eq => exact yields_spaced .assign
  case eqEq => exact yields_spaced .equal
  case notEq => exact yields_spaced .notEqual
  case lt => exact yields_spaced .less
  case gt => exact yields_spaced .greater
  case ltEq => exact yields_spaced .lessEqual
  case gtEq => exact yields_spaced .greaterEqual
  case add => exact yields_spaced .plus
  case sub => exact yields_spaced .minus
  case mul => exact yields_spaced .star
  case div => exact yields_spaced .slash
  case floorDiv => exact yields_spaced .slashSlash
  case mod => exact yields_spaced .percent
  case pow => exact yields_spaced .starStar

theorem named_builtin (function : Builtin) : Named (.builtin function) function.function := by
  cases function <;> exact ⟨by decide, by decide, by decide, by decide⟩

theorem named_keyword {keyword : Keyword} {w : String} (h : isWord w.toList = true)
    (means : Kind.ofWord? (Lexeme.lowered w.toList) = some (.keyword keyword))
    (single : Lexeme.compound? (Lexeme.lowered w.toList) = none) : Named (.keyword keyword) w :=
  ⟨h, by rw [means]; rfl, by simp, single⟩

theorem named_compteur : Named (.keyword .compteur) "compteur" :=
  named_keyword (by decide) (by decide) (by decide)

theorem named_non : Named (.keyword .non) "non" :=
  named_keyword (by decide) (by decide) (by decide)

theorem named_liste : Named (.keyword .liste) "liste" :=
  named_keyword (by decide) (by decide) (by decide)

theorem named_dictionnaire : Named (.keyword .dictionnaire) "dictionnaire" :=
  named_keyword (by decide) (by decide) (by decide)

theorem named_aleatoire : Named (.keyword .aleatoire) "aleatoire" :=
  named_keyword (by decide) (by decide) (by decide)

theorem yields_group {kind : Kind} {w : String} (named : Named kind w) {cs rest : List Char}
    {gs : List Token} (group : Yields cs gs rest) :
    Yields (w.toList ++ '(' :: cs) (.word kind w :: .sign .leftParen :: gs) rest :=
  yields_append (named.stands.yields _ (ends_paren _)) (yields_mark .leftParen (fun _ => rfl) group)

theorem ends_moreArguments {es : List Expr} {cs : List Char} {gs : List Token}
    (h : Spells (.moreArguments es) cs gs) (rest : List Char) : Ends (cs ++ rest) := by
  cases h with
  | argumentsEnd => exact ends_cons (by decide) (by decide) _
  | argumentsMore first more => exact ends_cons (by decide) (by decide) _

theorem ends_moreEntries {pairs : List (Expr × Expr)} {cs : List Char} {gs : List Token}
    (h : Spells (.moreEntries pairs) cs gs) (rest : List Char) : Ends (cs ++ rest) := by
  cases h with
  | entriesEnd => exact ends_cons (by decide) (by decide) _
  | entriesMore first second more => exact ends_cons (by decide) (by decide) _

theorem spells_yields {phrase : Phrase} {cs : List Char} {gs : List Token}
    (h : Spells phrase cs gs) {rest : List Char} (ends : Ends rest) : Yields cs gs rest := by
  have close (s : Symbol) (simple : ∀ c, Lexeme.grows s c = false) (rest : List Char) :
      Yields s.text.toList [.sign s] rest := yields_symbol s fun c _ => simple c
  have colon {cs : List Char} : Ends (':' :: cs) := ends_cons (by decide) (by decide) cs
  induction h generalizing rest with
  | literal stands => exact stands.yields rest ends
  | name named => exact named.stands.yields rest ends
  | compteur =>
    exact named_compteur.stands.yields rest ends
  | lift inner ih => exact ih ends
  | group inner ih =>
    refine yields_mark .leftParen (fun _ => rfl) ?_
    refine yields_append ?_ (close .rightParen (fun _ => rfl) _)
    exact ih (ends_cons (by decide) (by decide) _)
  | not operand ih =>
    exact yields_append (named_non.stands.yields _ (ends_space _)) (yields_space (ih ends))
  | @sign s op e cs gs mark operand ih =>
    refine yields_mark s ?_ (ih ends)
    cases s <;> first | exact fun _ => rfl | nomatch mark
  | operation mark first second ih ih' =>
    exact yields_append (ih (ends_space _)) (yields_operator _ (ih' ends))
  | power first second ih ih' =>
    exact yields_append (ih (ends_space _)) (yields_operator _ (ih' ends))
  | call path first group ih ih' =>
    exact yields_append (ih (ends_paren _)) (yields_mark .leftParen (fun _ => rfl) (ih' ends))
  | item first inner ih ih' =>
    refine yields_append (ih (ends_cons (by decide) (by decide) _)) ?_
    refine yields_mark .leftBracket (fun _ => rfl) ?_
    refine yields_append ?_ (close .rightBracket (fun _ => rfl) _)
    exact ih' (ends_cons (by decide) (by decide) _)
  | «attribute» named names first ih =>
    exact yields_append (ih (named.ends _))
      (yields_mark .dot (fun _ => rfl) (named.stands.yields rest ends))
  | list group ih => exact yields_group named_liste (ih ends)
  | dict group ih => exact yields_group named_dictionnaire (ih ends)
  | builtin group ih => exact yields_group (named_builtin _) (ih ends)
  | random size group ih => exact yields_group named_aleatoire (ih ends)
  | argumentsNone => exact close .rightParen (fun _ => rfl) rest
  | argumentsEnd => exact close .rightParen (fun _ => rfl) rest
  | entriesNone => exact close .rightParen (fun _ => rfl) rest
  | entriesEnd => exact close .rightParen (fun _ => rfl) rest
  | argument first more ih ih' =>
    exact yields_append (ih (ends_moreArguments more rest)) (ih' ends)
  | argumentsMore first more ih ih' =>
    refine yields_mark .comma (fun _ => rfl) (yields_space (yields_append ?_ (ih' ends)))
    exact ih (ends_moreArguments more rest)
  | entry first second more ih ih' ih'' =>
    refine yields_append (ih colon) (yields_mark .colon (fun _ => rfl) (yields_space ?_))
    exact yields_append (ih' (ends_moreEntries more rest)) (ih'' ends)
  | entriesMore first second more ih ih' ih'' =>
    refine yields_mark .comma (fun _ => rfl) (yields_space (yields_append (ih colon) ?_))
    refine yields_mark .colon (fun _ => rfl) (yields_space ?_)
    exact yields_append (ih' (ends_moreEntries more rest)) (ih'' ends)

/-! How the text of an expression begins -/

def OpensAt (l : Level) (t : Token) : Prop :=
  opens t = true ∨ (t.kind = .keyword .non ∧ 7 ≤ l.rank) ∨
    ((sign? t.kind).isSome = true ∧ 2 ≤ l.rank)

structure Opening (l : Level) (e : Expr) (cs : List Char) (gs : List Token) : Prop where
  position : e.position = .start
  begins : ∃ c ∈ cs.head?, Begins c
  token : ∃ t ∈ gs.head?, OpensAt l t

theorem Opening.append {l : Level} {e e' : Expr} {cs ds : List Char} {gs hs : List Token}
    (h : Opening l e cs gs) (position : e'.position = .start) :
    Opening l e' (cs ++ ds) (gs ++ hs) where
  position := position
  begins := by
    obtain ⟨c, head, begins⟩ := h.begins
    exact ⟨c, mem_head?_append head ds, begins⟩
  token := by
    obtain ⟨t, head, opensAt⟩ := h.token
    exact ⟨t, mem_head?_append head hs, opensAt⟩

theorem opensAt_mono {l l' : Level} (h : l.rank ≤ l'.rank) {t : Token} (opensAt : OpensAt l t) :
    OpensAt l' t := by
  rcases opensAt with opens | ⟨word, high⟩ | ⟨mark, high⟩
  · exact .inl opens
  · exact .inr (.inl ⟨word, Nat.le_trans high h⟩)
  · exact .inr (.inr ⟨mark, Nat.le_trans high h⟩)

theorem Level.rank_le_next (l : Level) : l.rank ≤ l.next.rank := by
  cases l with
  | chain c => cases c <;> decide
  | _ => decide

theorem opens_literal (value : Literal) : opens value.token = true := by
  cases value <;> rfl

theorem opening_word {kind : Kind} {w : String} (named : Named kind w) {e : Expr}
    (position : e.position = .start) (opens : opens (.word kind w) = true) (cs : List Char)
    (gs : List Token) : Opening .postfixes e (w.toList ++ cs) (.word kind w :: gs) where
  position := position
  begins := by
    obtain ⟨c, head, begins⟩ := named.stands.begins
    exact ⟨c, mem_head?_append head cs, begins⟩
  token := ⟨_, rfl, .inl opens⟩

def Phrase.Opens : Phrase → List Char → List Token → Prop
  | .expression l e, cs, gs => Opening l e cs gs
  | _, _, _ => True

theorem spells_opening {phrase : Phrase} {cs : List Char} {gs : List Token}
    (h : Spells phrase cs gs) : phrase.Opens cs gs := by
  induction h with
  | literal stands => exact ⟨rfl, stands.begins, _, rfl, .inl (opens_literal _)⟩
  | name named => exact ⟨rfl, named.stands.begins, _, rfl, .inl rfl⟩
  | compteur =>
    exact ⟨rfl, named_compteur.stands.begins, _, rfl, .inl rfl⟩
  | lift inner ih =>
    obtain ⟨t, head, opensAt⟩ := ih.token
    exact ⟨ih.position, ih.begins, t, head, opensAt_mono (Level.rank_le_next _) opensAt⟩
  | group inner ih => exact ⟨ih.position, ⟨_, rfl, by unfold Begins; decide⟩, _, rfl, .inl rfl⟩
  | not operand ih =>
    exact ⟨rfl, ⟨_, rfl, by unfold Begins; decide⟩, _, rfl, .inr (.inl ⟨rfl, Nat.le_refl _⟩)⟩
  | @sign s op e cs gs mark operand ih =>
    have some : (sign? (Token.sign s).kind).isSome = true := by
      rw [show (Token.sign s).kind = .symbol s from rfl, mark]
      rfl
    refine ⟨rfl, ?_, _, rfl, .inr (.inr ⟨some, Nat.le_refl _⟩)⟩
    unfold Begins
    cases s <;> exact ⟨_, rfl, by decide⟩
  | operation mark first second ih ih' => exact ih.append rfl
  | @power base e cs ds gs hs first second ih ih' =>
    obtain ⟨t, head, opensAt⟩ := ih.token
    have looser : Opening .power base cs gs :=
      ⟨ih.position, ih.begins, t, head, opensAt_mono (by decide) opensAt⟩
    exact looser.append rfl
  | call path first group ih ih' => exact ih.append rfl
  | item first inner ih ih' => exact ih.append rfl
  | «attribute» named names first ih => exact ih.append rfl
  | list group ih => exact opening_word named_liste rfl rfl _ _
  | dict group ih => exact opening_word named_dictionnaire rfl rfl _ _
  | builtin group ih => exact opening_word (named_builtin _) rfl rfl _ _
  | random size group ih => exact opening_word named_aleatoire rfl rfl _ _
  | _ => trivial

/-! Looser levels -/

theorem Level.rank_injective {l l' : Level} (h : l.rank = l'.rank) : l = l' := by
  rcases l with ⟨_ | _ | _ | _ | _⟩ | _ | _ | _ | _ <;>
    rcases l' with ⟨_ | _ | _ | _ | _⟩ | _ | _ | _ | _ <;>
    first | rfl | exact absurd h (by decide)

theorem Level.rank_next {l : Level} (h : l.rank < 9) : l.next.rank = l.rank + 1 := by
  rcases l with ⟨_ | _ | _ | _ | _⟩ | _ | _ | _ | _ <;> first | rfl | exact absurd h (by decide)

theorem Level.one_le_rank (l : Level) : 1 ≤ l.rank := by
  rcases l with ⟨_ | _ | _ | _ | _⟩ | _ | _ | _ | _ <;> decide

theorem spells_looser {l l' : Level} {e : Expr} {cs : List Char} {gs : List Token}
    (h : Spells (.expression l e) cs gs) (le : l.rank ≤ l'.rank) :
    Spells (.expression l' e) cs gs := by
  obtain ⟨steps, distance⟩ := Nat.exists_eq_add_of_le le
  induction steps generalizing l with
  | zero =>
    cases Level.rank_injective distance
    exact h
  | succ steps ih =>
    have high := l'.rank_le
    have next : l.next.rank = l.rank + 1 := Level.rank_next (by omega)
    exact ih h.lift (by omega) (by omega)

/-! Groups -/

theorem toList_separated (separator first : String) (more : List String) :
    (Text.separated separator (first :: more)).toList =
      first.toList ++ more.flatMap fun text => separator.toList ++ text.toList := by
  induction more generalizing first with
  | nil => simp [Text.separated]
  | cons second more ih =>
    rw [Text.separated, String.toList_append, String.toList_append, ih, List.flatMap_cons]
    · simp only [List.append_assoc]
    · simp

/-- The text is spelled at the level. -/
def Spelled (l : Level) (e : Expr) (text : String) : Prop :=
  ∃ gs, Spells (.expression l e.unplaced) text.toList gs

theorem spells_moreArguments {print : Expr → String} {es : List Expr}
    (h : ∀ e ∈ es, Spelled .lowest e (print e)) :
    ∃ gs, Spells (.moreArguments (es.map Expr.unplaced))
      ((es.map print).flatMap (fun text => ", ".toList ++ text.toList) ++ [')']) gs := by
  induction es with
  | nil => exact ⟨_, .argumentsEnd⟩
  | cons e es ih =>
    rw [List.forall_mem_cons] at h
    obtain ⟨gs, first⟩ := h.1
    obtain ⟨hs, more⟩ := ih h.2
    have whole := Spells.argumentsMore first more
    rw [List.map_cons, List.map_cons, List.flatMap_cons, List.append_assoc, List.append_assoc]
    exact ⟨_, whole⟩

theorem spells_arguments {print : Expr → String} {es : List Expr}
    (h : ∀ e ∈ es, Spelled .lowest e (print e)) :
    ∃ gs, Spells (.arguments (es.map Expr.unplaced))
      ((Text.separated ", " (es.map print)).toList ++ [')']) gs := by
  cases es with
  | nil => exact ⟨_, .argumentsNone⟩
  | cons e es =>
    rw [List.forall_mem_cons] at h
    obtain ⟨gs, first⟩ := h.1
    obtain ⟨hs, more⟩ := spells_moreArguments h.2
    have whole := Spells.argument first more
    rw [List.map_cons, List.map_cons, toList_separated, List.append_assoc]
    exact ⟨_, whole⟩

def printEntry (print : Expr → String) (entry : Expr × Expr) : String :=
  print entry.1 ++ ": " ++ print entry.2

def unplacedEntry (entry : Expr × Expr) : Expr × Expr := (entry.1.unplaced, entry.2.unplaced)

theorem spells_moreEntries {print : Expr → String} {pairs : List (Expr × Expr)}
    (keys : ∀ pair ∈ pairs, Spelled .lowest pair.1 (print pair.1))
    (values : ∀ pair ∈ pairs, Spelled .lowest pair.2 (print pair.2)) :
    ∃ gs, Spells (.moreEntries (pairs.map unplacedEntry))
      ((pairs.map (printEntry print)).flatMap (fun text => ", ".toList ++ text.toList) ++ [')'])
      gs := by
  induction pairs with
  | nil => exact ⟨_, .entriesEnd⟩
  | cons pair pairs ih =>
    rw [List.forall_mem_cons] at keys values
    obtain ⟨gs, first⟩ := keys.1
    obtain ⟨hs, second⟩ := values.1
    obtain ⟨is, more⟩ := ih keys.2 values.2
    have whole := Spells.entriesMore first second more
    rw [List.map_cons, List.map_cons, List.flatMap_cons, printEntry, String.toList_append,
      String.toList_append]
    simp only [List.append_assoc]
    exact ⟨_, whole⟩

theorem spells_entries {print : Expr → String} {pairs : List (Expr × Expr)}
    (keys : ∀ pair ∈ pairs, Spelled .lowest pair.1 (print pair.1))
    (values : ∀ pair ∈ pairs, Spelled .lowest pair.2 (print pair.2)) :
    ∃ gs, Spells (.entries (pairs.map unplacedEntry))
      ((Text.separated ", " (pairs.map (printEntry print))).toList ++ [')']) gs := by
  cases pairs with
  | nil => exact ⟨_, .entriesNone⟩
  | cons pair pairs =>
    rw [List.forall_mem_cons] at keys values
    obtain ⟨gs, first⟩ := keys.1
    obtain ⟨hs, second⟩ := values.1
    obtain ⟨is, more⟩ := spells_moreEntries keys.2 values.2
    have whole := Spells.entry first second more
    rw [List.map_cons, List.map_cons, toList_separated, printEntry, String.toList_append,
      String.toList_append]
    simp only [List.append_assoc]
    exact ⟨_, whole⟩

end Grammar

end Miaou
