import Miaou.Proofs.Grammar.Composition
import Miaou.Proofs.Grammar.Derivation
import Miaou.Proofs.Grammar.Outline
import Miaou.Proofs.Token.Span

/-!
Blocks of a program are blocks of its script. What the readers of statements take mirrors the
outline of what they give back, so depths in the program are balances of marks in the script.
-/

namespace Miaou

namespace Grammar

/-! Where an expression stands -/

/-- An expression stands at a token it was read from, and what goes on from an operand stands
where the operand does. -/
def Phrase.Anchored : Phrase → List Token → List Token → Prop
  | .expression _ e, ts, rest | .primary e, ts, rest =>
    ∃ before t behind, ts = before ++ t :: behind ∧ rest <:+ behind ∧ t.position = e.position
  | .operations _ object e, _, _ | .exponent object e, _, _ | .accesses object e, _, _ =>
    e.position = object.position
  | _, _, _ => True

theorem anchored_further {ts us rest : List Token} {object e : Expr}
    (first : ∃ before t behind, ts = before ++ t :: behind ∧ us <:+ behind ∧
      t.position = object.position) (more : rest <:+ us) (same : e.position = object.position) :
    ∃ before t behind, ts = before ++ t :: behind ∧ rest <:+ behind ∧ t.position = e.position := by
  obtain ⟨before, t, behind, whole, left, here⟩ := first
  exact ⟨before, t, behind, whole, more.trans left, here.trans same.symm⟩

theorem Derives.anchored {phrase : Phrase} {ts rest : List Token} (h : Derives phrase ts rest) :
    phrase.Anchored ts rest := by
  have first {t : Token} {us rest : List Token} (left : rest <:+ us) :
      ∃ before u behind, t :: us = before ++ u :: behind ∧ rest <:+ behind ∧
        u.position = t.position := ⟨[], t, us, rfl, left, rfl⟩
  induction h with
  | chain first more ih ih' | power first more ih ih' | postfixes first more ih ih' =>
    exact anchored_further ih more.suffix ih'
  | affirmed other inner ih | unsigned other inner ih => exact ih
  | not word operand | sign mark operand => exact first operand.suffix
  | operationsEnd other | exponentEnd other | accessesEnd noCall noItem noPoint => rfl
  | operation mark operand more ih ih' | call mark path group more ih ih'
  | item mark inner close more ih ih' => exact ih'
  | «attribute» mark name more ih => exact ih
  | exponent mark operand ih => rfl
  | literal found | identifier kind | compteur kind => exact first (List.suffix_refl _)
  | group mark inner close ih =>
    obtain ⟨before, a, behind, whole, left, here⟩ := ih
    refine ⟨_ :: before, a, behind, congrArg (_ :: ·) whole, ?_, here⟩
    exact (List.suffix_cons _ _).trans left
  | list word mark group | dict word mark group | builtin word mark group =>
    exact first (group.suffix.trans (List.suffix_cons _ _))
  | question word inner => exact first (inner.suffix.trans (question_suffix _))
  | random word call group => exact first (group.suffix.trans (argumentGroup?_suffix call))
  | range word call low high =>
    exact first ((high.suffix.trans (skipRangeWord_suffix _)).trans low.suffix)
  | bare word noCall inner => exact first inner.suffix
  | _ => trivial

theorem expression_anchored {level : Level} {ts us : List Token} {e : Expr}
    (h : outcome (expression level ts) = .ok (e, us)) :
    ∃ taken, ts = taken ++ us ∧ (∀ t ∈ taken, inExpression t.kind = true) ∧
      ∃ t ∈ taken, t.position = e.position := by
  obtain ⟨before, t, behind, whole, ⟨between, rfl⟩, here⟩ := (derives_expression.mpr h).anchored
  obtain ⟨taken, rfl, kinds⟩ := (expression_takes level ts).1 e us h
  have same : taken = before ++ t :: between :=
    List.append_cancel_right (whole.trans (by simp) : taken ++ us = (before ++ t :: between) ++ us)
  exact ⟨taken, rfl, kinds, t, by simp [same], here⟩

/-! What the readers take -/

open Outline

/-- The tokens before `rest` mirror the outline `entries`, whatever is around them. -/
def Outlined (entries : Nat → List Entry) (ts rest : List Token) : Prop :=
  ∃ taken, ts = taken ++ rest ∧ ∀ depth, Mirrors depth (entries depth) taken

theorem flat_of_inExpression {kind : Kind} (h : inExpression kind = true) : flat kind = true := by
  unfold inExpression at h
  split at h <;> first | rfl | cases h

theorem isLayout_of_inExpression {kind : Kind} (h : inExpression kind = true) :
    kind.isLayout = false := by
  unfold inExpression at h
  split at h <;> first | rfl | cases h

namespace Outlined

variable {entries entries' : Nat → List Entry} {ts us vs rest : List Token}

theorem trans (h : Outlined entries ts us) (h' : Outlined entries' us vs) :
    Outlined (fun depth => entries depth ++ entries' depth) ts vs := by
  obtain ⟨taken, rfl, mirrors⟩ := h
  obtain ⟨taken', rfl, mirrors'⟩ := h'
  exact ⟨taken ++ taken', by simp, fun depth => (mirrors depth).append (mirrors' depth)⟩

theorem refl (ts : List Token) : Outlined (fun _ => []) ts ts :=
  ⟨[], rfl, fun depth => .nothing depth (by simp)⟩

theorem flat {t : Token} (kind : Outline.flat t.kind = true) (rest : List Token) :
    Outlined (fun _ => []) (t :: rest) rest :=
  ⟨[t], rfl, fun depth => .nothing depth (by simpa using kind)⟩

theorem statement {s : Stmt} (plain : s.isBranch = false) {t : Token}
    (kind : Outline.flat t.kind = true) (text : t.kind.isLayout = false)
    (here : t.position = s.position) (rest : List Token) :
    Outlined (fun depth => [⟨depth, .statement s⟩]) (t :: rest) rest :=
  ⟨[t], rfl, fun depth => .statement depth plain (by simpa using kind) List.mem_cons_self text here⟩

theorem branch {s : Stmt} (branch : s.isBranch = true) {t : Token} (word : t.kind = .keyword .si)
    (here : t.position = s.position) (rest : List Token) :
    Outlined (fun depth => [⟨depth, .statement s⟩]) (t :: rest) rest :=
  ⟨[t], rfl, fun depth => .branch depth branch word here⟩

theorem clause (owner : Stmt) {word : Keyword} {t : Token}
    (kind : branchWord? t.kind = some word) (rest : List Token) :
    Outlined (fun depth => [⟨depth, .clause word owner⟩]) (t :: rest) rest :=
  ⟨[t], rfl, fun depth => .clause depth owner kind⟩

theorem block {t u : Token} {body : List Stmt} (ne : body ≠ []) (opens : t.kind = .layout .indent)
    (h : Outlined (fun depth => Stmt.linesOutline depth body) us (u :: rest))
    (closes : u.kind = .layout .dedent) :
    Outlined (fun depth => Stmt.blockOutline depth body) (t :: us) rest := by
  obtain ⟨taken, rfl, mirrors⟩ := h
  exact ⟨[t] ++ (taken ++ [u]), by simp, fun depth => .block ne opens (mirrors (depth + 1)) closes⟩

theorem taken {α : Type} {r : Reader α} {causes : Cause → Bool} {a : α}
    (h : Takes inExpression causes r ts) (read : r ts = .ok (a, us)) :
    Outlined (fun _ => []) ts us := by
  obtain ⟨taken, rfl, kinds⟩ := h.1 a us read
  exact ⟨taken, rfl, fun depth => .nothing depth fun t ht => flat_of_inExpression (kinds t ht)⟩

theorem expression {level : Level} {e : Expr}
    (read : outcome (expression level ts) = .ok (e, us)) : Outlined (fun _ => []) ts us :=
  taken (expression_takes level ts) read

theorem expect {kind : Kind} {cause : Cause} {t : Token}
    (read : outcome (expect kind cause ts) = .ok (t, us)) (h : Outline.flat kind = true) :
    Outlined (fun _ => []) ts us := by
  obtain ⟨same, rfl⟩ := outcome_expect_ok read
  exact flat (same ▸ h) us

theorem skip {kind : Kind} (h : Outline.flat kind = true) (ts : List Token) :
    Outlined (fun _ => []) ts (skip kind ts) := by
  cases ts with
  | nil => exact refl []
  | cons t rest =>
    rw [Grammar.skip]
    split
    · rename_i same
      exact flat (same ▸ h) rest
    · exact refl _

theorem lines (ts : List Token) : Outlined (fun _ => []) ts (skipNewlines ts) := by
  refine ⟨ts.takeWhile (·.kind = .layout .newline), (List.takeWhile_append_dropWhile ..).symm,
    fun depth => .nothing depth fun t ht => ?_⟩
  have newline : t.kind = .layout .newline := by simpa using List.mem_takeWhile_imp ht
  rw [newline]
  rfl

theorem suffix (h : Outlined entries ts us) : us <:+ ts := by
  obtain ⟨taken, rfl, -⟩ := h
  exact List.suffix_append taken us

theorem congr (h : Outlined entries ts us) (same : ∀ depth, entries' depth = entries depth) :
    Outlined entries' ts us := by
  obtain ⟨taken, rfl, mirrors⟩ := h
  exact ⟨taken, rfl, fun depth => same depth ▸ mirrors depth⟩

end Outlined

/-- The tokens from `ts` on up to `us` lie inside a script: each of their blocks begins with a
text token and they do not reach the end. -/
structure Inner (ts us : List Token) : Prop where
  opened : ∀ before t behind, ts = before ++ t :: behind → t.kind = .layout .indent →
    ∃ u ∈ behind.head?, u.kind.isLayout = false
  ne : us ≠ []

theorem Inner.part {ts us vs ws : List Token} (h : Inner ts us) (left : vs <:+ ts)
    (right : us <:+ ws) : Inner vs ws where
  opened := by
    obtain ⟨taken, rfl⟩ := left
    intro before t behind same
    exact h.opened (taken ++ before) t behind (by rw [same, List.append_assoc])
  ne := by
    rintro rfl
    exact h.ne (List.suffix_nil.mp right)

def OneLine (s : Stmt) : Prop := s.isBranch = false ∧ ∀ depth, s.inside depth = []

theorem Outlined.oneLine {s : Stmt} (single : OneLine s) {ts us : List Token}
    (h : Outlined (fun depth => [⟨depth, .statement s⟩]) ts us) :
    Outlined (fun depth => s.outline depth) ts us := by
  obtain ⟨taken, rfl, mirrors⟩ := h
  refine ⟨taken, rfl, fun depth => ?_⟩
  change Mirrors depth (⟨depth, .statement s⟩ :: s.inside depth) taken
  rw [single.2 depth]
  exact mirrors depth

theorem oneLine_expression (pos : Position) (e : Expr) : OneLine (.expression pos e) :=
  ⟨rfl, fun _ => rfl⟩

theorem Outlined.begun {level : Level} {e : Expr} {s : Stmt} {t : Token} {ts us : List Token}
    (plain : s.isBranch = false) (here : t.position = s.position)
    (read : outcome (Grammar.expression level (t :: ts)) = .ok (e, us)) :
    Outlined (fun depth => [⟨depth, .statement s⟩]) (t :: ts) us := by
  obtain ⟨taken, whole, kinds⟩ := (expression_takes level (t :: ts)).1 e us read
  have less := outcome_rest_lt read
  cases taken with
  | nil =>
    rw [whole] at less
    exact absurd less (Nat.lt_irrefl _)
  | cons u taken =>
    cases (List.cons.inj whole).1
    refine ⟨t :: taken, whole, fun depth => ?_⟩
    exact .statement depth plain (fun u hu => flat_of_inExpression (kinds u hu)) List.mem_cons_self
      (isLayout_of_inExpression (kinds t List.mem_cons_self)) here

theorem Composes.body_ne_nil {ts us : List Token} {body : List Stmt} {t : Token}
    (h : Composes (.body body) ts us) (first : t ∈ ts.head?) (text : t.kind.isLayout = false) :
    body ≠ [] := by
  have other (mark : Layout) : t.kind ≠ .layout mark := by
    intro same
    rw [same] at text
    cases text
  have found : skipNewlines ts = ts := skipNewlines_lacks fun u hu =>
    Option.mem_unique first hu ▸ other _
  cases h with
  | bodyEnd none =>
    rw [← found, none] at first
    cases first
  | bodyClose close mark =>
    rw [← found, close] at first
    cases first
    exact absurd mark (other _)
  | bodyMore => exact List.cons_ne_nil _ _

def Part.Outlined : Part → List Token → List Token → Prop
  | .statement s, ts, us => Grammar.Outlined (fun depth => s.outline depth) ts us
  | .block ss, ts, us => Grammar.Outlined (fun depth => Stmt.blockOutline depth ss) ts us
  | .body ss, ts, us => ∃ u, u.kind = .layout .dedent ∧
      Grammar.Outlined (fun depth => Stmt.linesOutline depth ss) ts (u :: us)
  | .clauses cs, ts, us => ∀ owner,
      Grammar.Outlined (fun depth => Stmt.clausesOutline depth owner cs) ts us
  | .otherwise last, ts, us => ∀ owner,
      Grammar.Outlined (fun depth => Stmt.otherwiseOutline depth owner last) ts us
  | .script ss, ts, us => Grammar.Outlined (fun depth => Stmt.linesOutline depth ss) ts us

/-- Inside a script, what the readers of statements take mirrors the outline of what they give
back. -/
theorem composes_outlined {part : Part} {ts us : List Token} (h : Composes part ts us)
    (inner : Inner ts us) : part.Outlined ts us := by
  -- The word a statement begins with, which stands at the place of the statement.
  have word {s : Stmt} {t : Token} {kind : Kind} (same : t.kind = kind) (plain : s.isBranch = false)
      (here : t.position = s.position) (text : kind.isLayout = false)
      (flat : Outline.flat kind = true) (rest : List Token) :
      Outlined (fun depth => [⟨depth, .statement s⟩]) (t :: rest) rest :=
    .statement plain (same ▸ flat) (same ▸ text) here rest
  -- A statement of one block behind the tokens `head`.
  have governs {entry : Nat → List Entry} {body : List Stmt} {ts us vs : List Token}
      (head : Outlined entry ts us) (inner : Inner ts vs)
      (ih : Inner us vs → Outlined (fun depth => Stmt.blockOutline depth body) us vs) :
      Outlined (fun depth => entry depth ++ Stmt.blockOutline depth body) ts vs :=
    head.trans (ih (inner.part head.suffix (List.suffix_refl _)))
  induction h with
  | print kind line =>
    exact .oneLine (oneLine_expression _ _)
      ((word kind rfl rfl rfl rfl _).trans (.taken (line_takes _).1 line))
  | @branch t colon condition body more last ts us vs ws xs ys kind test mark block further ending
      ih ih' ih'' =>
    let s : Stmt := .branch t.position condition body more last
    have head : Outlined (fun depth => [⟨depth, .statement s⟩]) (t :: ts) vs :=
      (Outlined.branch rfl kind rfl ts).trans ((Outlined.expression test).trans
        ((Outlined.skip rfl us).trans (.expect mark rfl)))
    have first := ih (inner.part head.suffix (ending.suffix.trans further.suffix))
    have second := ih' (inner.part (block.suffix.trans head.suffix) ending.suffix) s
    have third := ih'' (inner.part (further.suffix.trans (block.suffix.trans head.suffix))
      (List.suffix_refl _)) s
    exact (head.trans (first.trans (second.trans third))).congr fun depth =>
      congrArg (_ :: ·) (Stmt.inside_branch depth t.position condition body more last)
  | whileLoop kind test mark block ih =>
    exact governs ((word kind rfl rfl rfl rfl _).trans ((Outlined.expression test).trans
      (.expect mark rfl))) inner ih
  | repeatLoop kind times mark block ih =>
    exact governs ((word kind rfl rfl rfl rfl _).trans ((Outlined.expression times).trans
      ((Outlined.skip rfl _).trans (.expect mark rfl)))) inner ih
  | forEach kind called among whole mark block ih =>
    exact governs ((word kind rfl rfl rfl rfl _).trans ((Outlined.expect called rfl).trans
      ((Outlined.expect among rfl).trans ((Outlined.expression whole).trans
        (.expect mark rfl))))) inner ih
  | define kind called opened given mark block ih =>
    exact governs ((word kind rfl rfl rfl rfl _).trans ((Outlined.expect called rfl).trans
      ((Outlined.expect opened rfl).trans ((Outlined.taken (line_takes _).2.2 given).trans
        (.expect mark rfl))))) inner ih
  | giveBack kind line =>
    exact .oneLine ⟨rfl, fun _ => rfl⟩
      ((word kind rfl rfl rfl rfl _).trans (.taken (line_takes _).2.1 line))
  | @attempt t colon sauf colon' body handler ts us vs ws xs ys kind mark block caught mark' block'
      ih ih' =>
    have head := (@word (.attempt t.position body handler) t _ kind rfl rfl rfl rfl ts).trans
      (.expect mark rfl)
    have middle := (Outlined.expect caught rfl).trans
      ((Outlined.skip rfl ws).trans (.expect mark' rfl))
    have first := ih (inner.part head.suffix (block'.suffix.trans middle.suffix))
    have second := ih' (inner.part (middle.suffix.trans (block.suffix.trans head.suffix))
      (List.suffix_refl _))
    exact (head.trans (first.trans (middle.trans second))).congr fun depth =>
      congrArg (_ :: ·) (Stmt.inside_attempt depth t.position body handler)
  | importModule kind called =>
    exact .oneLine ⟨rfl, fun _ => rfl⟩ ((word kind rfl rfl rfl rfl _).trans (.expect called rfl))
  | assign kind mark line =>
    exact .oneLine ⟨rfl, fun _ => rfl⟩ ((word kind rfl rfl rfl rfl _).trans
      ((Outlined.flat (by rw [mark]; rfl) _).trans (.expression line)))
  | assignItem kind mark target mark' line =>
    exact .oneLine ⟨rfl, fun _ => rfl⟩ ((Outlined.begun rfl rfl target).trans
      ((Outlined.flat (by rw [mark']; rfl) _).trans (.expression line)))
  | item kind mark line noAssign => exact .oneLine (oneLine_expression _ _) (.begun rfl rfl line)
  | named kind noAssign noItem line =>
    exact .oneLine (oneLine_expression _ _) (.begun rfl rfl line)
  | expression plain allowed line =>
    obtain ⟨taken, whole, kinds, a, member, here⟩ := expression_anchored line
    refine .oneLine (oneLine_expression _ _) ⟨taken, whole, fun depth => ?_⟩
    exact .statement depth rfl (fun u hu => flat_of_inExpression (kinds u hu)) member
      (isLayout_of_inExpression (kinds a member)) here
  | @block t body ts us rest found mark content ih =>
    have lines := Outlined.lines ts
    rw [found] at lines
    have inner' := inner.part lines.suffix (List.suffix_refl _)
    obtain ⟨u, closes, inside⟩ := ih (inner'.part (List.suffix_cons _ _) (List.suffix_refl _))
    refine lines.trans (.block ?_ mark inside closes)
    -- The block begins with a text token, so its body is not closed there.
    obtain ⟨v, first, text⟩ := inner'.opened [] t us rfl mark
    exact content.body_ne_nil first text
  | bodyEnd found => exact absurd rfl inner.ne
  | @bodyClose t ts rest found mark => exact ⟨t, mark, found ▸ Outlined.lines ts⟩
  | @bodyMore t s ss ts us vs rest found other first more ih ih' =>
    have lines := Outlined.lines ts
    rw [found] at lines
    have here := ih (inner.part lines.suffix more.suffix)
    obtain ⟨u, closes, further⟩ :=
      ih' (inner.part (here.suffix.trans lines.suffix) (List.suffix_refl _))
    exact ⟨u, closes, (lines.trans (here.trans further)).congr fun depth =>
      Stmt.linesOutline_cons depth s ss⟩
  | @clause t colon condition body others ts us vs ws xs kind test mark block further ih ih' =>
    intro owner
    have head := (@Outlined.clause owner .sinonSi t (by rw [kind]; rfl) ts).trans
      ((Outlined.expression test).trans ((Outlined.skip rfl us).trans (.expect mark rfl)))
    have first := ih (inner.part head.suffix further.suffix)
    have second := ih' (inner.part (block.suffix.trans head.suffix) (List.suffix_refl _)) owner
    exact (head.trans (first.trans second)).congr fun depth =>
      Stmt.clausesOutline_cons depth owner condition body others
  | @clausesEnd ts other => exact fun _ => .refl ts
  | @otherwise t colon body ts us vs kind mark block ih =>
    intro owner
    exact governs ((@Outlined.clause owner .sinon t (by rw [kind]; rfl) ts).trans
      (.expect mark rfl)) inner ih
  | @otherwiseEnd ts other => exact fun _ => .refl ts
  | scriptEnd found => exact absurd rfl inner.ne
  | @scriptClose t ts rest found kind => exact found ▸ Outlined.lines ts
  | @scriptMore t s ss ts us vs rest found other first more ih ih' =>
    have lines := Outlined.lines ts
    rw [found] at lines
    have here := ih (inner.part lines.suffix more.suffix)
    have further := ih' (inner.part (here.suffix.trans lines.suffix) (List.suffix_refl _))
    exact (lines.trans (here.trans further)).congr fun depth => Stmt.linesOutline_cons depth s ss

/-! Scripts -/

/-- The tokens of a script mirror the outline of its program. -/
theorem script_mirrors {ts : List Token} {p : Program} (h : script ts = .ok p)
    (opened : ∀ before t behind, ts = before ++ t :: behind → t.kind = .layout .indent →
      ∃ u ∈ behind.head?, u.kind.isLayout = false) : Mirrors 0 p.outline ts := by
  obtain ⟨opening, rest, closing, ends, found, word, read, word', quiet⟩ := script_ok h
  have head : Outlined (fun _ => []) ts rest :=
    (Outlined.lines ts).trans (found ▸ .flat (by rw [word]; rfl) rest)
  have inner : Inner ts (closing :: ends) := ⟨opened, List.cons_ne_nil _ _⟩
  have body := composes_outlined (composes_script read)
    (inner.part head.suffix (List.suffix_refl _))
  have last := (Outlined.flat (by rw [word']; rfl) ends).trans (.lines ends)
  rw [quiet] at last
  have all : Outlined (fun depth => Stmt.linesOutline depth p.statements) ts [] :=
    (head.trans (body.trans last)).congr fun depth => (List.append_nil _).symm
  obtain ⟨taken, whole, mirrors⟩ := all
  rw [whole, List.append_nil]
  exact mirrors 0

end Grammar

open Outline

namespace Outline

theorem words_split (depth : Int) {before behind : List Token} {t : Token} {word : Keyword}
    (h : branchWord? t.kind = some word) :
    words depth (before ++ t :: behind) =
      words depth before ++ (word, depth + balance before) ::
        words (depth + balance before + balance [t]) behind := by
  rw [words_append, words, h]
  rfl

theorem countP_words (depth : Int) (ts : List Token) {word : Keyword}
    (h : branchWord? (.keyword word) = some word) :
    (words depth ts).countP (·.1 = word) = ts.countP (·.kind = .keyword word) := by
  induction ts generalizing depth with
  | nil => rfl
  | cons t ts ih =>
    rw [words, List.countP_append, ih, List.countP_cons, Nat.add_comm]
    congr 1
    cases found : branchWord? t.kind with
    | none =>
      have other : t.kind ≠ .keyword word := by
        intro same
        rw [same, h] at found
        cases found
      simp [other]
    | some word' => simp [branchWord?_eq_some found]

theorem word?_eq_some {e : Entry} {word : Keyword} {depth : Int} (h : e.word? = some (word, depth))
    (other : word ≠ .si) : ∃ (d : Nat) (owner : Stmt), e = ⟨d, .clause word owner⟩ ∧ depth = d := by
  obtain ⟨d, s | ⟨word', owner⟩ | body⟩ := e
  · rw [Entry.word?] at h
    split at h
    · cases h
      exact absurd rfl other
    · cases h
  · cases h
    exact ⟨d, owner, rfl, rfl⟩
  · cases h

theorem countP_word? (entries : List Entry) {word : Keyword} (other : word ≠ .si) :
    (entries.filterMap Entry.word?).countP (·.1 = word) =
      entries.countP (Entry.isClause word) := by
  rw [List.countP_filterMap]
  refine List.countP_congr fun e _ => ?_
  obtain ⟨d, s | ⟨word', owner⟩ | body⟩ := e
  · rw [Entry.word?]
    split <;> simp [Entry.isClause, other.symm]
  · simp [Entry.word?, Entry.isClause]
  · simp [Entry.word?, Entry.isClause]

end Outline

def Stands (ts : List Token) (place : Position) (before : List Token) (t : Token) : Prop :=
  (∃ behind, ts = before ++ t :: behind) ∧ t.kind.isLayout = false ∧ t.position = place

theorem stands_unique {source : String} {ts before before' : List Token} {place : Position}
    {t t' : Token} (h : tokenize source = .ok ts) (here : Stands ts place before t)
    (here' : Stands ts place before' t') : before' = before ∧ t' = t := by
  obtain ⟨⟨behind, rfl⟩, text, same⟩ := here
  obtain ⟨⟨behind', whole⟩, text', same'⟩ := here'
  have owns := Span.ownsText_of_not_layout text
  have owns' := Span.ownsText_of_not_layout text'
  have apart := h
  rw [whole] at apart
  rcases List.append_eq_append_iff.mp whole with
    ⟨_ | ⟨u, between⟩, rfl, rest⟩ | ⟨_ | ⟨u, between⟩, rfl, rest⟩
  · cases rest
    simp
  · cases rest
    rw [List.append_assoc, List.cons_append] at apart
    exact absurd (same.trans same'.symm) (tokenize_position_ne apart owns owns')
  · cases rest
    simp
  · cases rest
    rw [List.append_assoc, List.cons_append] at h
    exact absurd (same'.trans same.symm) (tokenize_position_ne h owns' owns)

/-- What the depths in a program say about the tokens of its script. -/
structure Nested (p : Program) (ts : List Token) : Prop where
  inhabited : ∀ depth body, ⟨depth, .block body⟩ ∈ p.outline → body ≠ []
  blocks : p.outline.countP Entry.isBlock = marks .indent ts
  /-- One text token stands at the place of a statement, and before it are open as many blocks as
  are around the statement. -/
  statements : ∀ (depth : Nat) s, ⟨depth, .statement s⟩ ∈ p.outline → ∃ before t,
    Stands ts s.position before t ∧ balance before = depth ∧
      ∀ before' t', Stands ts s.position before' t' → before' = before ∧ t' = t
  furtherConditions : p.outline.countP (Entry.isClause .sinonSi) =
    ts.countP (·.kind = .keyword .sinonSi)
  elses : p.outline.countP (Entry.isClause .sinon) = ts.countP (·.kind = .keyword .sinon)
  /-- The clauses come in the order of their words, and before the word of a clause the balance is
  the one before the first word of its branching statement. -/
  attached : ∀ before t behind word, ts = before ++ t :: behind → t.kind = .keyword word →
    word = .sinonSi ∨ word = .sinon → ∃ above depth owner below,
      p.outline = above ++ ⟨depth, .clause word owner⟩ :: below ∧
      above.countP (Entry.isClause word) = before.countP (·.kind = .keyword word) ∧
      ∃ before' si, Stands ts owner.position before' si ∧ si.kind = .keyword .si ∧
        balance before = balance before'

theorem nested_of_mirrors {source : String} {ts : List Token} {p : Program}
    (h : tokenize source = .ok ts) (mirrors : Mirrors 0 p.outline ts) : Nested p ts where
  inhabited := mirrors.inhabited
  blocks := mirrors.blocks
  statements := by
    intro depth s member
    obtain ⟨before, t, behind, whole, text, here, open', -⟩ := mirrors.placed depth s member
    have stands : Stands ts s.position before t := ⟨⟨behind, whole⟩, text, here⟩
    refine ⟨before, t, stands, ?_, fun before' t' => stands_unique h stands⟩
    rw [← open']
    exact (Int.zero_add _).symm
  furtherConditions := by
    rw [← countP_word? _ (by decide), ← mirrors.words, countP_words _ _ rfl]
  elses := by rw [← countP_word? _ (by decide), ← mirrors.words, countP_words _ _ rfl]
  attached := by
    intro before t behind word whole kind clause
    have other : word ≠ .si := by rcases clause with rfl | rfl <;> decide
    have branching : branchWord? (.keyword word) = some word := by
      rcases clause with rfl | rfl <;> rfl
    have order := mirrors.words
    rw [whole, words_split _ (kind ▸ branching)] at order
    obtain ⟨above, rest, parts, same, order'⟩ := List.filterMap_eq_append_iff.mp order.symm
    obtain ⟨silent, e, below, parts', none, found, -⟩ := List.filterMap_eq_cons_iff.mp order'
    obtain ⟨d, owner, rfl, open'⟩ := word?_eq_some found other
    have member : ⟨d, .clause word owner⟩ ∈ p.outline := by simp [parts, parts']
    obtain ⟨first, branch⟩ := p.owned_outline _ member word owner rfl
    obtain ⟨before', si, behind', whole', text, here, open'', first⟩ := mirrors.placed d owner first
    refine ⟨above ++ silent, d, owner, below, by simp [parts, parts'], ?_, before', si,
      ⟨⟨behind', whole'⟩, text, here⟩, first branch, ?_⟩
    · rw [List.countP_append, ← countP_word? above other, ← countP_word? silent other, same,
        countP_words _ _ branching, List.filterMap_eq_nil_iff.mpr none]
      rfl
    · exact Int.add_left_cancel (open'.trans open''.symm)

theorem parse_mirrors {source : String} {p : Program} (h : parse source = .ok p) :
    ∃ body q, tokenize source = .ok (body ++ [.eof q]) ∧ (∀ t ∈ body, t.kind ≠ .layout .eof) ∧
      Grammar.script body = .ok p ∧ Mirrors 0 p.outline body := by
  obtain ⟨ts, read, -⟩ := Grammar.bind_ok h
  obtain ⟨body, q, rfl, inside, -⟩ := tokenize_ended read
  have laid := Layout.laidOut_of_laid
    (Layout.laid_of_scan (Piece.scan_ofScript source.toList) read (by simp))
  rw [parse_of_tokenize read inside] at h
  have opened : ∀ before t behind, body = before ++ t :: behind → t.kind = .layout .indent →
      ∃ u ∈ behind.head?, u.kind.isLayout = false := by
    rintro before t behind rfl mark
    obtain ⟨-, -, u, first, text⟩ := laid.opening before t (behind ++ [.eof q]) (by simp) mark
    cases behind with
    | nil =>
      cases first
      cases text
    | cons v vs => exact ⟨u, first, text⟩
  exact ⟨body, q, read, inside, mapError_ok h, Grammar.script_mirrors (mapError_ok h) opened⟩

/-- In a script that is read, nesting of the program is indentation of the script. -/
theorem parse_nested {source : String} {p : Program} (h : parse source = .ok p) :
    ∃ ts, tokenize source = .ok ts ∧ Nested p ts := by
  obtain ⟨body, q, read, -, -, inner⟩ := parse_mirrors h
  have last : Mirrors 0 [] [Token.eof q] := .nothing 0 (by simp [Token.eof, flat, branchWord?])
  have mirrors := inner.append last
  rw [List.append_nil] at mirrors
  exact ⟨_, read, nested_of_mirrors read mirrors⟩

theorem parse_nested_else :
    ∃ p ts, parse "miaou\nsi x:\n  si y:\n    z\nsinon:\n  w\nmeow" = .ok p ∧
      tokenize "miaou\nsi x:\n  si y:\n    z\nsinon:\n  w\nmeow" = .ok ts ∧ Nested p ts ∧
      p.outline.countP Entry.isBlock = 3 ∧ p.outline.countP (Entry.isClause .sinon) = 1 := by
  have accepted : (parse "miaou\nsi x:\n  si y:\n    z\nsinon:\n  w\nmeow").toBool = true := by
    decide +kernel
  cases read : parse "miaou\nsi x:\n  si y:\n    z\nsinon:\n  w\nmeow" with
  | error fault =>
    rw [read] at accepted
    cases accepted
  | ok p =>
    obtain ⟨ts, tokens, nested⟩ := parse_nested read
    have counts : (tokenize "miaou\nsi x:\n  si y:\n    z\nsinon:\n  w\nmeow").map
        (fun ts => (marks .indent ts, ts.countP (·.kind = .keyword .sinon))) = .ok (3, 1) := by
      decide +kernel
    rw [tokens] at counts
    obtain ⟨blocks, elses⟩ := Prod.mk.inj (Except.ok.inj counts)
    exact ⟨p, ts, rfl, tokens, nested, nested.blocks.trans blocks, nested.elses.trans elses⟩

end Miaou
