import Mathlib.Logic.Relation
import Miaou.Proofs.Grammar.Following

/-!
Where expressions and statements stand. An expression stands at the first of its tokens that is no
opening parenthesis, and so does everything stored in it, for the tokens that it was read from.
-/

namespace Miaou

namespace Expr

def children : Expr → List Expr
  | .literal .. | .identifier .. => []
  | .binary _ _ left right => [left, right]
  | .unary _ _ operand => [operand]
  | .call _ _ given => given
  | .list _ items => items
  | .dict _ entries => entries.flatMap fun (key, value) => [key, value]
  | .item _ object index => [object, index]
  | .attribute _ object _ => [object]

def leading? : Expr → Option Expr
  | .binary _ _ left _ => some left
  | .item _ object _ | .attribute _ object _ => some object
  | _ => none

/-- `d` is stored in `e`, at any depth. -/
def Inside (d e : Expr) : Prop := Relation.TransGen (fun d e : Expr => d ∈ e.children) d e

end Expr

namespace Grammar

def lead? (ts : List Token) : Option Position :=
  (ts.find? fun t => t.kind ≠ .symbol .leftParen).map Token.position

theorem lead?_paren {t : Token} (mark : t.kind = .symbol .leftParen) (ts : List Token) :
    lead? (t :: ts) = lead? ts := by
  simp [lead?, mark]

theorem lead?_other {t : Token} (other : t.kind ≠ .symbol .leftParen) (ts : List Token) :
    lead? (t :: ts) = some t.position := by
  simp [lead?, other]

/-- The expression has the place of the first token that is no opening parenthesis, and so has the
operand or the object it begins with. -/
structure StandsAt (e : Expr) (ts : List Token) : Prop where
  lead : lead? ts = some e.position
  leading : ∀ d ∈ e.leading?, d.position = e.position

namespace StandsAt

variable {d e : Expr} {t : Token} {ts : List Token}

theorem first (other : t.kind ≠ .symbol .leftParen) (here : e.position = t.position)
    (alone : e.leading? = none) : StandsAt e (t :: ts) where
  lead := by rw [lead?_other other, here]
  leading := by simp [alone]

theorem outer (h : StandsAt d ts) (here : e.position = d.position)
    (target : ∀ c ∈ e.leading?, c = d) : StandsAt e ts where
  lead := by rw [h.lead, here]
  leading c hc := by rw [target c hc, here]

theorem paren (h : StandsAt e ts) (mark : t.kind = .symbol .leftParen) : StandsAt e (t :: ts) where
  lead := by rw [lead?_paren mark, h.lead]
  leading := h.leading

end StandsAt

def Phrase.Led : Phrase → List Token → Prop
  | .expression _ e, ts | .primary e, ts => StandsAt e ts
  | .operations _ object e, _ | .exponent object e, _ | .accesses object e, _ =>
    ∀ ts, StandsAt object ts → StandsAt e ts
  | _, _ => True

theorem kind_ne_paren_of_literal {t : Token} {value : Literal}
    (h : literal? t.kind t.payload = some value) : t.kind ≠ .symbol .leftParen := by
  intro mark
  rw [mark] at h
  cases h

theorem Derives.led {phrase : Phrase} {ts rest : List Token} (h : Derives phrase ts rest) :
    phrase.Led ts := by
  induction h with
  | chain first more ih ih' | power first more ih ih' | postfixes first more ih ih' =>
    exact ih' _ ih
  | affirmed other inner ih | unsigned other inner ih => exact ih
  | operationsEnd other | exponentEnd other | accessesEnd noCall noItem noPoint =>
    exact fun ts object => object
  | operation mark operand more ih ih' =>
    exact fun ts object => ih' ts (object.outer rfl fun c hc => (Option.some.inj hc).symm)
  | exponent mark operand =>
    exact fun ts object => object.outer rfl fun c hc => (Option.some.inj hc).symm
  | call mark path group more ih ih' =>
    exact fun ts object => ih' ts (object.outer rfl fun c hc => nomatch hc)
  | item mark inner close more ih ih' =>
    exact fun ts object => ih' ts (object.outer rfl fun c hc => (Option.some.inj hc).symm)
  | «attribute» mark name more ih =>
    exact fun ts object => ih ts (object.outer rfl fun c hc => (Option.some.inj hc).symm)
  | sign mark operand =>
    refine .first (fun same => ?_) rfl rfl
    rw [same] at mark
    cases mark
  | literal found => exact .first (kind_ne_paren_of_literal found) rfl rfl
  | group mark inner close ih => exact ih.paren mark
  | identifier word | compteur word | not word | list word | dict word | question word | random word
  | range word | builtin word | bare word => exact .first (by simp [word]) rfl rfl
  | _ => trivial

/-! The text of an expression -/

/-- Each of the expressions is read whole from a stretch of the tokens. -/
def Among (es : List Expr) (ts : List Token) : Prop :=
  ∀ d ∈ es, ∃ hs, hs <:+: ts ∧ Derives (.expression .lowest d) hs []

namespace Among

variable {es es' : List Expr} {ts us : List Token}

theorem none : Among [] ts := fun _ hd => nomatch hd

theorem within (h : Among es ts) (part : ts <:+: us) : Among es us := fun d hd =>
  let ⟨hs, stretch, read⟩ := h d hd
  ⟨hs, stretch.trans part, read⟩

theorem append (h : Among es ts) (h' : Among es' ts) : Among (es ++ es') ts := fun d hd =>
  (List.mem_append.mp hd).elim (h d) (h' d)

theorem single {d : Expr} (read : Derives (.expression .lowest d) ts []) : Among [d] ts :=
  fun _ hd => List.mem_singleton.mp hd ▸ ⟨ts, List.infix_refl ts, read⟩

end Among

theorem Derives.whole {level : Level} {e : Expr} {ts rest : List Token}
    (h : Derives (.expression level e) ts rest) :
    ∃ gs, ts = gs ++ rest ∧ Derives (.expression .lowest e) gs [] := by
  obtain ⟨gs, rfl⟩ := h.suffix
  refine ⟨gs, rfl, ?_⟩
  have alone : Derives (.expression .lowest e) (gs ++ []) [] :=
    h.halting level.rank_le fun t ht => nomatch ht
  rwa [List.append_nil] at alone

/-- Behind `gs`, before what `ts` may be replaced by, the level goes on from its operand by the
phrases `further`. -/
def GoesOn (level : Level) (further : Expr → Phrase) (gs ts : List Token) : Prop :=
  ∀ e ts' rest, Replaces ts' ts → Derives (further e) ts' rest →
    Derives (.expression level e) (gs ++ ts') rest

theorem GoesOn.whole {level : Level} {further : Expr → Phrase} {object : Expr} {gs ts : List Token}
    (h : GoesOn level further gs ts) (ending : Derives (further object) [] []) :
    Derives (.expression .lowest object) gs [] := by
  have alone := h object [] [] (.inr fun t ht => nomatch ht) ending
  rw [List.append_nil] at alone
  exact alone.looser level.rank_le fun t ht => nomatch ht

def Parts (gs : List Token) (es : List Expr) (ts rest : List Token) : Prop :=
  ∃ taken, ts = taken ++ rest ∧ Among es (gs ++ taken)

namespace Parts

variable {hs ts us rest : List Token} {es es' : List Expr} {t : Token}

theorem step {gs : List Token} (h : Parts (gs ++ t :: hs) es ts rest) :
    Parts gs es (t :: (hs ++ ts)) rest := by
  obtain ⟨taken, rfl, among⟩ := h
  refine ⟨t :: (hs ++ taken), by simp, ?_⟩
  rwa [List.append_assoc] at among

theorem behind (gs : List Token) (h : Parts [] es ts rest) : Parts [] es (gs ++ ts) rest := by
  obtain ⟨taken, rfl, among⟩ := h
  exact ⟨gs ++ taken, (List.append_assoc ..).symm, among.within (List.suffix_append ..).isInfix⟩

theorem joined (h : Parts [] es ts us) (h' : Parts [] es' us rest) :
    Parts [] (es ++ es') ts rest := by
  obtain ⟨hs, rfl, among⟩ := h
  obtain ⟨hs', rfl, among'⟩ := h'
  refine ⟨hs ++ hs', (List.append_assoc ..).symm, .append ?_ ?_⟩
  · exact among.within (List.prefix_append ..).isInfix
  · exact among'.within (List.suffix_append ..).isInfix

theorem further {level : Level} {phrase : Expr → Phrase} {e object : Expr}
    (h : Parts [] object.children ts us)
    (rule : ∀ gs, ts = gs ++ us → GoesOn level phrase gs us)
    (more : ∀ gs, GoesOn level phrase gs us → Among object.children gs →
      Parts gs e.children us rest) : Parts [] e.children ts rest := by
  obtain ⟨gs, rfl, among⟩ := h
  obtain ⟨hs, rfl, among'⟩ := more gs (rule gs rfl) among
  exact ⟨gs ++ hs, (List.append_assoc ..).symm, among'⟩

theorem none (gs : List Token) : Parts [] [] (gs ++ rest) rest := ⟨gs, rfl, .none⟩

end Parts

theorem Derives.parts {level : Level} {e : Expr} {ts rest : List Token}
    (h : Derives (.expression level e) ts rest) : Parts [] [e] ts rest := by
  obtain ⟨hs, rfl, read⟩ := h.whole
  exact ⟨hs, rfl, .single read⟩

theorem Among.pair {gs hs : List Token} {t : Token} {left right : Expr}
    (first : Derives (.expression .lowest left) gs [])
    (second : Derives (.expression .lowest right) hs []) :
    Among [left, right] (gs ++ t :: hs) := by
  have before := (Among.single first).within (List.prefix_append gs (t :: hs)).isInfix
  have behind : Among [right] (gs ++ t :: hs) :=
    (Among.single second).within ⟨gs ++ [t], [], by simp⟩
  exact before.append behind

/-- The text of each part is among the tokens taken. What goes on from an operand has the parts of
the operand among the tokens that were taken for it. -/
def Phrase.Parted : Phrase → List Token → List Token → Prop
  | .expression _ e, ts, rest | .primary e, ts, rest => Parts [] e.children ts rest
  | .operations c object e, ts, rest => ∀ gs, GoesOn (.chain c) (.operations c object) gs ts →
      Among object.children gs → Parts gs e.children ts rest
  | .exponent base e, ts, rest => ∀ gs, GoesOn .power (.exponent base) gs ts →
      Among base.children gs → Parts gs e.children ts rest
  | .accesses object e, ts, rest => ∀ gs, GoesOn .postfixes (.accesses object) gs ts →
      Among object.children gs → Parts gs e.children ts rest
  | .arguments es, ts, rest | .moreArguments es, ts, rest => Parts [] es ts rest
  | .entries pairs, ts, rest | .moreEntries pairs, ts, rest =>
    Parts [] (pairs.flatMap fun (key, value) => [key, value]) ts rest

theorem Derives.parted {phrase : Phrase} {ts rest : List Token} (h : Derives phrase ts rest) :
    phrase.Parted ts rest := by
  induction h with
  | chain first more ih ih' =>
    refine ih.further (fun gs whole e' ts' rest' other more' => ?_) ih'
    subst whole
    exact .chain (first.before other) more'
  | power first more ih ih' =>
    refine ih.further (fun gs whole e' ts' rest' other more' => ?_) ih'
    subst whole
    exact .power (first.before other) more'
  | postfixes first more ih ih' =>
    refine ih.further (fun gs whole e' ts' rest' other more' => ?_) ih'
    subst whole
    exact .postfixes (first.before other) more'
  | affirmed other inner ih | unsigned other inner ih => exact ih
  | not word inner | sign mark inner | bare word noCall inner => exact inner.parts.behind [_]
  | operationsEnd | exponentEnd | accessesEnd =>
    intro gs goesOn among
    exact ⟨[], rfl, by rwa [List.append_nil]⟩
  | @operation c t op left right e us vs rest mark inner more ih ih' =>
    intro gs goesOn among
    obtain ⟨hs, rfl, read⟩ := inner.whole
    -- The operand so far becomes a part of the next one, whose tokens end with those of `right`.
    have first := goesOn.whole (.operationsEnd fun _ ht => nomatch ht)
    refine (ih' (gs ++ t :: hs) (fun e' ts' rest' other more' => ?_) (.pair first read)).step
    rw [List.append_assoc]
    exact goesOn e' _ rest' (.inl rfl) (.operation mark (inner.before other) more')
  | @exponent t base e us rest mark inner =>
    intro gs goesOn among
    obtain ⟨hs, rfl, read⟩ := inner.whole
    have first := goesOn.whole (.exponentEnd (lacks_nil _))
    exact ⟨t :: hs, rfl, .pair first read⟩
  | @call t object e function given us vs rest mark path group more ih ih' =>
    intro gs goesOn among
    obtain ⟨hs, rfl, among'⟩ := ih
    refine (ih' (gs ++ t :: hs) (fun e' ts' rest' other more' => ?_) ?_).step
    · rw [List.append_assoc]
      exact goesOn e' _ rest' (.inl rfl) (.call mark path (group.before other) more')
    · exact among'.within ⟨gs ++ [t], [], by simp⟩
  | @item t u object index e us vs rest mark inner close more ih ih' =>
    intro gs goesOn among
    obtain ⟨hs, rfl, read⟩ := inner.whole
    have first := goesOn.whole (.accessesEnd (lacks_nil _) (lacks_nil _) (lacks_nil _))
    have parts : Among [object, index] (gs ++ t :: (hs ++ [u])) :=
      (Among.pair (t := t) first read).within ⟨[], [u], by simp⟩
    have goesOn' : GoesOn .postfixes (.accesses (.item object.position object index))
        (gs ++ t :: (hs ++ [u])) vs := by
      intro e' ts' rest' other more'
      have inner' : Derives (.expression .lowest index) (hs ++ u :: ts') (u :: ts') :=
        inner.before (.inl rfl)
      simpa using goesOn e' (t :: (hs ++ u :: ts')) rest' (.inl rfl)
        (.item mark inner' close more')
    simpa using (ih' _ goesOn' parts).step
  | @«attribute» t u object e us rest mark name more ih =>
    intro gs goesOn among
    have first := goesOn.whole (.accessesEnd (lacks_nil _) (lacks_nil _) (lacks_nil _))
    have parts : Among [object] (gs ++ [t, u]) :=
      (Among.single first).within (List.prefix_append ..).isInfix
    refine (ih (gs ++ [t, u]) (fun e' ts' rest' other more' => ?_) parts).step
    rw [List.append_assoc]
    exact goesOn e' _ rest' (.inl rfl) (.attribute mark name more')
  | literal | identifier | compteur => exact Parts.none [_]
  | @group t u e us rest mark inner close ih =>
    obtain ⟨hs, rfl, among⟩ := ih
    exact ⟨t :: (hs ++ [u]), by simp, among.within ⟨[t], [u], by simp⟩⟩
  | list word mark group ih | dict word mark group ih | builtin word mark group ih =>
    exact ih.behind [_, _]
  | @question t prompt us rest word inner =>
    obtain ⟨gs, whole⟩ := question_suffix us
    rw [← whole]
    exact inner.parts.behind (t :: gs)
  | @random t given us inner rest word call group ih =>
    obtain ⟨p, -, rfl⟩ := argumentGroup?_cons call
    exact ih.behind [t, p]
  | @range t low high us vs rest word call first second =>
    obtain ⟨ws, whole⟩ := skipRangeWord_suffix vs
    have high := second.parts.behind ws
    rw [whole] at high
    exact (first.parts.joined high).behind [t]
  | argumentsNone | argumentsEnd | entriesNone | entriesEnd => exact Parts.none [_]
  | argument other first more ih ih' => exact first.parts.joined ih'
  | argumentsMore mark more ih | entriesMore mark more ih => exact ih.behind [_]
  | entry other first mark second more ih ih' ih'' =>
    exact first.parts.joined ((second.parts.joined ih'').behind [_])

theorem among_inside {d e : Expr} {ts : List Token} (inside : d.Inside e)
    (among : Among e.children ts) : ∃ hs, hs <:+: ts ∧ Derives (.expression .lowest d) hs [] := by
  induction inside using Relation.TransGen.head_induction_on with
  | single child => exact among _ child
  | head child inside ih =>
    obtain ⟨hs, stretch, read⟩ := ih
    obtain ⟨taken, whole, parts⟩ := read.parted
    rw [List.append_nil] at whole
    subst whole
    obtain ⟨ks, within, read'⟩ := parts _ child
    exact ⟨ks, within.trans stretch, read'⟩

/-- An expression that is read, at any level or as an operand, stands at the first token that is no
opening parenthesis. Everything stored in it is read whole from a stretch of its tokens, and stands
at the first of these that is none. -/
theorem expression_stands {r : Reader Expr} {ts us : List Token} {e : Expr}
    (reader : r = Reader.primary ∨ ∃ level, r = Reader.expression level)
    (read : r ts = .ok (e, us)) :
    StandsAt e ts ∧ ∃ taken, ts = taken ++ us ∧ ∀ d, d.Inside e →
      ∃ hs, hs <:+: taken ∧ outcome (expression .lowest hs) = .ok (d, []) ∧ StandsAt d hs := by
  have known : StandsAt e ts ∧ Parts [] e.children ts us := by
    rcases reader with rfl | ⟨level, rfl⟩
    · have derived := ExprGoal.derived .primary ts read
      exact ⟨derived.led, derived.parted⟩
    · have derived := derives_expression.mpr read
      exact ⟨derived.led, derived.parted⟩
  obtain ⟨stands, taken, whole, parts⟩ := known
  refine ⟨stands, taken, whole, fun d inside => ?_⟩
  obtain ⟨hs, stretch, derived⟩ := among_inside inside parts
  exact ⟨hs, stretch, derived.reads, derived.led⟩

theorem expression_stands_group :
    let ts : List Token := [⟨.symbol .leftParen, .str "(", ⟨1, 1⟩⟩,
      ⟨.symbol .leftParen, .str "(", ⟨1, 2⟩⟩, ⟨.identifier, .str "a", ⟨1, 3⟩⟩,
      ⟨.symbol .rightParen, .str ")", ⟨1, 4⟩⟩, ⟨.symbol .plus, .str "+", ⟨1, 6⟩⟩,
      ⟨.symbol .leftParen, .str "(", ⟨1, 8⟩⟩, ⟨.identifier, .str "b", ⟨1, 9⟩⟩,
      ⟨.symbol .rightParen, .str ")", ⟨1, 10⟩⟩, ⟨.symbol .rightParen, .str ")", ⟨1, 11⟩⟩,
      ⟨.symbol .leftBracket, .str "[", ⟨1, 12⟩⟩, ⟨.number, .int 0, ⟨1, 13⟩⟩,
      ⟨.symbol .rightBracket, .str "]", ⟨1, 14⟩⟩]
    let sum : Expr := .binary ⟨1, 3⟩ .add (.identifier ⟨1, 3⟩ "a") (.identifier ⟨1, 9⟩ "b")
    let e : Expr := .item ⟨1, 3⟩ sum (.literal ⟨1, 13⟩ (.int 0))
    tokenize "((a) + (b))[0]\n" = .ok (ts ++ [.newline ⟨1, 15⟩, .eof ⟨2, 1⟩]) ∧
      outcome (expression .lowest ts) = .ok (e, []) ∧ StandsAt e ts ∧
      ∀ d ∈ [sum, .identifier ⟨1, 9⟩ "b"],
        ∃ hs, hs <:+: ts ∧ outcome (expression .lowest hs) = .ok (d, []) ∧ StandsAt d hs := by
  intro ts sum e
  have read : outcome (expression .lowest ts) = .ok (e, []) := by cbv
  obtain ⟨stands, taken, whole, parts⟩ := expression_stands (.inr ⟨.lowest, rfl⟩) read
  rw [List.append_nil] at whole
  subst whole
  have child : sum.Inside e := .single (by simp [e, Expr.children])
  have operand : (Expr.identifier ⟨1, 9⟩ "b").Inside e :=
    .head (by simp [sum, Expr.children]) child
  refine ⟨by decide +kernel, read, stands, fun d hd => parts d ?_⟩
  rcases List.mem_cons.mp hd with rfl | hd
  · exact child
  · exact List.mem_singleton.mp hd ▸ operand

/-! Statements -/

theorem position_ne_of_paren {source : String} {before behind ts us : List Token} {t : Token}
    {level : Level} {e : Expr} (script : tokenize source = .ok (before ++ t :: (ts ++ behind)))
    (mark : t.kind = .symbol .leftParen)
    (read : Derives (.expression level e) (t :: ts) us) : e.position ≠ t.position := by
  obtain ⟨gs, whole, alone⟩ := read.whole
  obtain ⟨taken, same, kinds⟩ := (expression_takes .lowest gs).1 e [] alone.reads
  rw [List.append_nil] at same
  subst same
  obtain ⟨u, found, here⟩ := Option.map_eq_some_iff.mp alone.led.lead
  obtain ⟨other, xs, ys, rfl, -⟩ := List.find?_eq_some_iff_append.mp found
  cases xs with
  | nil =>
    cases (List.cons.inj whole).1
    exact absurd mark (by simpa using other)
  | cons x xs =>
    obtain ⟨rfl, rfl⟩ := List.cons.inj whole
    have inside (v : Token) (hv : v ∈ t :: xs ++ u :: ys) : v.ownsText = true :=
      Span.ownsText_of_not_layout (isLayout_of_inExpression (kinds v hv))
    have script' : tokenize source = .ok (before ++ t :: (xs ++ u :: (ys ++ us ++ behind))) := by
      simpa using script
    rw [← here]
    exact (tokenize_position_ne script' (inside t (by simp)) (inside u (by simp))).symm

/-- A statement stands at its first token, unless this is an opening parenthesis: then it is an
expression, which stands at the first token that is none. In a script these are two places. -/
theorem statement_stands {t : Token} {ts us : List Token} {s : Stmt}
    (read : outcome (statement (t :: ts)) = .ok (s, us)) :
    (t.kind ≠ .symbol .leftParen → s.position = t.position) ∧
    (t.kind = .symbol .leftParen → ∃ e, s = .expression e.position e ∧
      outcome (expression .lowest (t :: ts)) = .ok (e, us) ∧ StandsAt e (t :: ts)) ∧
    ∀ source before behind, tokenize source = .ok (before ++ t :: (ts ++ behind)) →
      (s.position = t.position ↔ t.kind ≠ .symbol .leftParen) := by
  have known : (t.kind ≠ .symbol .leftParen → s.position = t.position) ∧
      (t.kind = .symbol .leftParen → ∃ e, s = .expression e.position e ∧
        outcome (expression .lowest (t :: ts)) = .ok (e, us) ∧ StandsAt e (t :: ts)) := by
    have composed := composes_statement read
    cases composed with
    | expression plain allowed line =>
      have stands : StandsAt _ (t :: ts) := (derives_expression.mpr line).led
      refine ⟨fun other => ?_, fun mark => ⟨_, rfl, line, stands⟩⟩
      have lead := stands.lead
      rw [lead?_other other] at lead
      exact (Option.some.inj lead).symm
    | print word | branch word | whileLoop word | repeatLoop word | forEach word | define word
    | giveBack word | attempt word | importModule word | assign word | assignItem word | item word
    | named word => exact ⟨fun _ => rfl, fun mark => by simp [word] at mark⟩
  refine ⟨known.1, known.2, fun source before behind script => ⟨fun here mark => ?_, known.1⟩⟩
  obtain ⟨e, rfl, line, stands⟩ := known.2 mark
  exact position_ne_of_paren script mark (derives_expression.mpr line) here

theorem statement_stands_attribute :
    let t : Token := ⟨.symbol .leftParen, .str "(", ⟨1, 1⟩⟩
    let ts : List Token := [⟨.identifier, .str "a", ⟨1, 2⟩⟩,
      ⟨.symbol .rightParen, .str ")", ⟨1, 3⟩⟩, ⟨.symbol .dot, .str ".", ⟨1, 4⟩⟩,
      ⟨.identifier, .str "b", ⟨1, 5⟩⟩, .newline ⟨1, 6⟩]
    ∃ e, tokenize "(a).b\n" = .ok (t :: (ts ++ [.eof ⟨2, 1⟩])) ∧
      outcome (statement (t :: ts)) = .ok (.expression e.position e, [.newline ⟨1, 6⟩]) ∧
      StandsAt e (t :: ts) ∧ e.position ≠ t.position := by
  intro t ts
  let e : Expr := .attribute ⟨1, 2⟩ (.identifier ⟨1, 2⟩ "a") "b"
  have script : tokenize "(a).b\n" = .ok ([] ++ t :: (ts ++ [.eof ⟨2, 1⟩])) := by decide +kernel
  have read : outcome (statement (t :: ts)) =
      .ok (.expression e.position e, [.newline ⟨1, 6⟩]) := by cbv
  obtain ⟨-, paren, apart⟩ := statement_stands read
  obtain ⟨e', same, -, stands⟩ := paren rfl
  obtain rfl := (Stmt.expression.inj same).2
  exact ⟨e, script, read, stands, fun here => (apart _ _ _ script).mp here rfl⟩

theorem statement_stands_elsewhere :
    ∃ t ts s us, tokenize "(1 + 2)\n" = .ok (t :: (ts ++ [.eof ⟨2, 1⟩])) ∧
      outcome (statement (t :: ts)) = .ok (s, us) ∧ s.position ≠ t.position := by
  let sum : Expr :=
    .binary ⟨1, 2⟩ .add (.literal ⟨1, 2⟩ (.int 1)) (.literal ⟨1, 6⟩ (.int 2))
  refine ⟨⟨.symbol .leftParen, .str "(", ⟨1, 1⟩⟩, [⟨.number, .int 1, ⟨1, 2⟩⟩,
    ⟨.symbol .plus, .str "+", ⟨1, 4⟩⟩, ⟨.number, .int 2, ⟨1, 6⟩⟩,
    ⟨.symbol .rightParen, .str ")", ⟨1, 7⟩⟩, .newline ⟨1, 8⟩], .expression ⟨1, 2⟩ sum,
    [.newline ⟨1, 8⟩], by decide +kernel, by cbv, by decide⟩

end Grammar

end Miaou
