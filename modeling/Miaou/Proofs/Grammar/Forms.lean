import Mathlib.Data.List.Infix
import Miaou.Proofs.Grammar.Following
import Miaou.Proofs.Grammar.Precedence

/-!
The two forms of a built-in function. With its operand behind it, or with bounds and a word between
them, a function is read as it is with a group of arguments. What tells a group of arguments from a
bound in parentheses is a comma outside all inner groups.
-/

namespace Miaou.Grammar

/-! Brackets -/

def weight (kind : Kind) : Int := if opensGroup kind then 1 else if closesGroup kind then -1 else 0

theorem weight_closes {kind : Kind} (h : closesGroup kind = true) : weight kind = -1 := by
  simp only [closesGroup, Bool.or_eq_true, decide_eq_true_eq] at h
  rcases h with rfl | rfl <;> rfl

/-- How many more groups the tokens open than they close. -/
def nesting : List Token → Int
  | [] => 0
  | t :: ts => weight t.kind + nesting ts

@[simp] theorem nesting_single (t : Token) : nesting [t] = weight t.kind := Int.add_zero _

/-- The tokens close the groups that they open, and no others. -/
structure Balanced (gs : List Token) : Prop where
  closed : nesting gs = 0
  inside : ∀ xs, xs <+: gs → 0 ≤ nesting xs

instance (gs : List Token) : Decidable (Balanced gs) :=
  decidable_of_iff (nesting gs = 0 ∧ ∀ xs ∈ gs.inits, 0 ≤ nesting xs)
    ⟨fun h => ⟨h.1, fun xs stretch => h.2 xs ((List.mem_inits xs gs).mpr stretch)⟩,
      fun h => ⟨h.closed, fun xs hxs => h.inside xs ((List.mem_inits xs gs).mp hxs)⟩⟩

/-- With `depth` groups open before the tokens, a comma stands among them where none is open. -/
def Separated (depth : Int) (gs : List Token) : Prop :=
  ∃ xs c ys, gs = xs ++ c :: ys ∧ c.kind = .symbol .comma ∧ depth + nesting xs = 0

theorem separated_nil (depth : Int) : ¬Separated depth [] := by
  rintro ⟨xs, c, ys, whole, -⟩
  simp at whole

@[simp] theorem separated_cons {depth : Int} {g : Token} {gs : List Token} :
    Separated depth (g :: gs) ↔
      g.kind = .symbol .comma ∧ depth = 0 ∨ Separated (depth + weight g.kind) gs := by
  constructor
  · rintro ⟨xs, c, ys, whole, comma, outer⟩
    cases xs with
    | nil =>
      cases whole
      exact .inl ⟨comma, by simpa [nesting] using outer⟩
    | cons x xs =>
      obtain ⟨rfl, rfl⟩ := List.cons.inj whole
      rw [nesting, ← Int.add_assoc] at outer
      exact .inr ⟨xs, c, ys, rfl, comma, outer⟩
  · rintro (⟨comma, rfl⟩ | ⟨xs, c, ys, rfl, comma, outer⟩)
    · exact ⟨[], g, gs, rfl, comma, by simp [nesting]⟩
    · refine ⟨g :: xs, c, ys, rfl, comma, ?_⟩
      rwa [nesting, ← Int.add_assoc]

instance decidableSeparated : (depth : Int) → (gs : List Token) → Decidable (Separated depth gs)
  | depth, [] => .isFalse (separated_nil depth)
  | depth, g :: gs =>
    have := decidableSeparated (depth + weight g.kind) gs
    decidable_of_iff' _ separated_cons

/-- Behind `depth` open groups that the tokens close, the look-ahead finds a comma exactly if one
stands outside all groups. -/
theorem commaAhead_group {q : Token} (close : q.kind = .symbol .rightParen) (rest : List Token)
    {gs : List Token} (line : ∀ g ∈ gs, g.kind ≠ .layout .newline) {depth : Nat}
    (inside : ∀ xs, xs <+: gs → 0 ≤ depth + nesting xs) (closed : depth + nesting gs = 0) :
    commaAhead depth (gs ++ q :: rest) = true ↔ Separated depth gs := by
  induction gs generalizing depth with
  | nil =>
    have zero : depth = 0 := by simpa [nesting] using closed
    subst zero
    exact iff_of_false (by simp [commaAhead_close close]) (separated_nil _)
  | cons g gs ih =>
    -- The groups open behind the first token are as many as the look-ahead counts there.
    have next {d : Nat} (count : (d : Int) = depth + weight g.kind) :
        commaAhead d (gs ++ q :: rest) = true ↔ Separated (depth + weight g.kind) gs := by
      rw [← count]
      refine ih (fun t ht => line t (List.mem_cons_of_mem _ ht)) (fun xs stretch => ?_) ?_
      · have before := inside (g :: xs) (List.cons_prefix_cons.mpr ⟨rfl, stretch⟩)
        rw [nesting] at before
        omega
      · rw [nesting] at closed
        omega
    rw [separated_cons, List.cons_append]
    by_cases opens : opensGroup g.kind = true
    · have other : g.kind ≠ .symbol .comma := by
        rintro same
        simp [same, opensGroup] at opens
      have one : weight g.kind = 1 := if_pos opens
      rw [commaAhead_opens opens, next (by rw [one]; omega)]
      simp [other]
    by_cases closes : closesGroup g.kind = true
    · have other : g.kind ≠ .symbol .comma := by
        rintro same
        simp [same, closesGroup] at closes
      have one := weight_closes closes
      have before := inside [g] ⟨gs, rfl⟩
      rw [nesting_single, one] at before
      obtain ⟨outer, rfl⟩ : ∃ outer, depth = outer + 1 := ⟨depth - 1, by omega⟩
      rw [commaAhead_closes closes, next (by rw [one]; omega)]
      simp [other]
    have none : weight g.kind = 0 := (if_neg opens).trans (if_neg closes)
    have still := next (d := depth) (by rw [none]; omega)
    by_cases comma : g.kind = .symbol .comma
    · cases depth with
      | zero => exact iff_of_true (commaAhead_separated comma _) (.inl ⟨comma, rfl⟩)
      | succ outer =>
        rw [commaAhead_inner comma, still]
        exact ⟨.inr, fun found => found.resolve_left fun first => by omega⟩
    · have passed : passes g.kind = true := by
        simp [passes, opens, closes, comma, line g List.mem_cons_self]
      rw [commaAhead_passes passed, still]
      simp [comma]

theorem listsArguments_group {q : Token} (close : q.kind = .symbol .rightParen) (rest : List Token)
    {gs : List Token} (balanced : Balanced gs) (line : ∀ g ∈ gs, g.kind ≠ .layout .newline) :
    listsArguments (gs ++ q :: rest) = true ↔ gs = [] ∨ Separated 0 gs := by
  cases gs with
  | nil => simp [listsArguments, close, closesGroup]
  | cons g gs =>
    have other : closesGroup g.kind = false := by
      cases closes : closesGroup g.kind with
      | false => rfl
      | true =>
        have before := balanced.inside [g] ⟨gs, rfl⟩
        rw [nesting_single, weight_closes closes] at before
        exact absurd before (by decide)
    have scan : commaAhead 0 (g :: gs ++ q :: rest) = true ↔ Separated 0 (g :: gs) :=
      commaAhead_group close rest line (fun xs stretch => by simpa using balanced.inside xs stretch)
        (by simpa using balanced.closed)
    rw [List.cons_append] at scan ⊢
    rw [listsArguments, other, Bool.false_or, scan]
    simp

/-! Groups of arguments -/

theorem Derives.argument_cons {e : Expr} {es : List Expr} {ts us rest : List Token}
    (first : Derives (.expression .lowest e) ts us) (more : Derives (.moreArguments es) us rest) :
    Derives (.arguments (e :: es)) ts rest := by
  obtain ⟨t, head, opensAt⟩ := first.begins
  obtain ⟨behind, rfl⟩ := List.head?_eq_some_iff.mp head
  exact .argument opensAt.ne_rightParen first more

/-! The same at other places -/

theorem Derives.elsewhere {level : Level} {e : Expr} {ts ts' us us' : List Token}
    (h : Derives (.expression level e) (ts ++ us) us)
    (same : ts.map Token.unplaced = ts'.map Token.unplaced) (halts : Halts 9 us') :
    ∃ e', Derives (.expression .lowest e') (ts' ++ us') us' ∧ e'.unplaced = e.unplaced := by
  have whole : Derives (.expression .lowest e) (ts ++ us') us' := h.halting level.rank_le halts
  have moved := whole.unplaced
  rw [List.map_append, same, ← List.map_append] at moved
  obtain ⟨e', read', like⟩ := expression_placed moved
  exact ⟨e', derives_expression.mpr read', like⟩

/-- Two lists of tokens begin with the operand `e`, up to places, and leave `rest` and `rest'`. If
these are the same up to places, so is whatever is read, at every level. -/
structure ReadsAlike (e : Expr) (ts rest ts' rest' : List Token) : Prop where
  first : outcome (primary ts) = .ok (e, rest)
  second : ∃ e', outcome (primary ts') = .ok (e', rest') ∧ e'.unplaced = e.unplaced
  whole : rest.map Token.unplaced = rest'.map Token.unplaced → ∀ level,
    moved (fun _ => .start) Expr.unplaced (outcome (expression level ts)) =
      moved (fun _ => .start) Expr.unplaced (outcome (expression level ts'))

theorem moved_alike {t : Token} {ts us us' rest : List Token} {e : Expr}
    (begins : opens t = true) (first : outcome (primary (t :: ts)) = .ok (e, rest))
    (second : outcome (primary (t :: us)) = .ok (e, rest))
    (same : (t :: us).map Token.unplaced = us'.map Token.unplaced) (level : Level) :
    moved (fun _ => .start) Expr.unplaced (outcome (expression level (t :: ts))) =
      moved (fun _ => .start) Expr.unplaced (outcome (expression level us')) := by
  have behind : Reader.expression level (t :: ts) = Reader.expression level (t :: us) :=
    calc Reader.expression level (t :: ts)
        = Reader.primary.andThen (Reader.behind level) (t :: ts) :=
          Reader.expression_behind begins ts level
      _ = Reader.primary.andThen (Reader.behind level) (t :: us) :=
          Reader.andThen_congr (first.trans second.symm) _
      _ = Reader.expression level (t :: us) := (Reader.expression_behind begins us level).symm
  calc moved (fun _ => .start) Expr.unplaced (outcome (expression level (t :: ts)))
      = moved (fun _ => .start) Expr.unplaced (outcome (expression level (t :: us))) :=
        congrArg _ behind
    _ = outcome (expression level ((t :: us).map Token.unplaced)) :=
        (@expression_relocate (fun _ => .start) level (t :: us)).symm
    _ = outcome (expression level (us'.map Token.unplaced)) := by rw [same]
    _ = moved (fun _ => .start) Expr.unplaced (outcome (expression level us')) :=
        @expression_relocate (fun _ => .start) level us'

theorem unplaced_call {pos pos' : Position} {function : String} {es es' : List Expr}
    (same : es.map Expr.unplaced = es'.map Expr.unplaced) :
    (Expr.call pos function es).unplaced = (Expr.call pos' function es').unplaced := by
  rw [Expr.unplaced, Expr.unplaced, Expr.relocate, Expr.relocate, Expr.relocateAll_eq_map,
    Expr.relocateAll_eq_map]
  exact congrArg (Expr.call .start function) same

section Forms

variable {t t' p q : Token} {rest rest' : List Token}

theorem called {f : Builtin} {operand : Expr} {ts : List Token} (word : t.kind = .builtin f)
    (mark : p.kind = .symbol .leftParen) (close : q.kind = .symbol .rightParen)
    (read : Derives (.expression .lowest operand) (ts ++ q :: rest) (q :: rest)) :
    outcome (primary (t :: p :: (ts ++ q :: rest))) =
      .ok (.call t.position f.function [operand], rest) :=
  (Derives.builtin word mark (read.argument_cons (.argumentsEnd close))).reads

theorem builtin_forms {f : Builtin} {operand : Expr} {ts ts' : List Token}
    (word : t.kind = .builtin f) (mark : p.kind = .symbol .leftParen)
    (close : q.kind = .symbol .rightParen) (place : t.unplaced = t'.unplaced)
    (same : ts.map Token.unplaced = ts'.map Token.unplaced)
    (bare : Lacks (.symbol .leftParen) ts)
    (read : outcome (expression .postfixes (ts ++ rest)) = .ok (operand, rest)) :
    ReadsAlike (.call t.position f.function [operand]) (t :: (ts ++ rest)) rest
      (t' :: p :: (ts' ++ q :: rest')) rest' := by
  have derived := derives_expression.mpr read
  have noCall : Lacks (.symbol .leftParen) (ts ++ rest) := by
    cases ts with
    | nil => exact absurd (outcome_rest_lt read) (Nat.lt_irrefl _)
    | cons u us => exact bare
  have word' : t'.kind = .builtin f := (congrArg Token.kind place).symm.trans word
  have first := (Derives.bare word noCall derived).reads
  refine ⟨first, ?_, fun behind level => ?_⟩
  · obtain ⟨operand', inner, like⟩ :=
      derived.elsewhere same (halts_of_kind close rfl rest')
    exact ⟨_, called word' mark close inner, unplaced_call (by simp [like])⟩
  · have second := called word mark close
      (derived.halting (Level.rank_le _) (halts_of_kind close rfl rest))
    exact moved_alike (by simp [opens, word]) first second (by simp [place, same, behind]) level

theorem drawn {c : Token} {low high : Expr} {ms ns : List Token}
    (word : t.kind = .keyword .aleatoire) (mark : p.kind = .symbol .leftParen)
    (comma : c.kind = .symbol .comma) (close : q.kind = .symbol .rightParen)
    (first : Derives (.expression .lowest low) (ms ++ c :: (ns ++ q :: rest))
      (c :: (ns ++ q :: rest)))
    (second : Derives (.expression .lowest high) (ns ++ q :: rest) (q :: rest)) :
    outcome (primary (t :: p :: (ms ++ c :: (ns ++ q :: rest)))) =
      .ok (.call t.position "aleatoire" [low, high], rest) := by
  have lists := first.listsArguments_eq.trans (commaAhead_separated comma _)
  have group := first.argument_cons
    (.argumentsMore comma (second.argument_cons (.argumentsEnd close)))
  exact (Derives.random word (by rw [argumentGroup?_paren mark, if_pos lists]) group).reads

/-- A random number between two bounds. -/
theorem range_forms {w c : Token} {low high : Expr} {ms ms' ns ns' : List Token}
    (word : t.kind = .keyword .aleatoire) (name : w.kind = .identifier)
    (between : Lexeme.lowered w.lexeme.toList = "a") (mark : p.kind = .symbol .leftParen)
    (comma : c.kind = .symbol .comma) (close : q.kind = .symbol .rightParen)
    (place : t.unplaced = t'.unplaced) (same : ms.map Token.unplaced = ms'.map Token.unplaced)
    (same' : ns.map Token.unplaced = ns'.map Token.unplaced)
    (read : outcome (expression (.chain .sum) (ms ++ w :: (ns ++ rest))) =
      .ok (low, w :: (ns ++ rest)))
    (read' : outcome (expression (.chain .sum) (ns ++ rest)) = .ok (high, rest)) :
    ReadsAlike (.call t.position "aleatoire" [low, high]) (t :: (ms ++ w :: (ns ++ rest))) rest
      (t' :: p :: (ms' ++ c :: (ns' ++ q :: rest'))) rest' := by
  have derived := derives_expression.mpr read
  have derived' := derives_expression.mpr read'
  have word' : t'.kind = .keyword .aleatoire := (congrArg Token.kind place).symm.trans word
  have skipped : skipRangeWord (w :: (ns ++ rest)) = ns ++ rest := by
    simp [skipRangeWord, name, between]
  have first := (Derives.range word derived.argumentGroup?_eq_none derived
    (skipped.symm ▸ derived')).reads
  refine ⟨first, ?_, fun behind level => ?_⟩
  · obtain ⟨low', inner, like⟩ :=
      derived.elsewhere same (halts_of_kind comma rfl (ns' ++ q :: rest'))
    obtain ⟨high', inner', like'⟩ :=
      derived'.elsewhere same' (halts_of_kind close rfl rest')
    exact ⟨_, drawn word' mark comma close inner inner', unplaced_call (by simp [like, like'])⟩
  · have second := drawn word mark comma close
      (derived.halting (Level.rank_le _) (halts_of_kind comma rfl (ns ++ q :: rest)))
      (derived'.halting (Level.rank_le _) (halts_of_kind close rfl rest))
    exact moved_alike (by simp [opens, word]) first second (by simp [place, same, same', behind])
      level

/-- A balanced group behind the word for a random number is a list of arguments exactly if it is
empty or has a comma outside all inner groups; otherwise a bound begins with it. -/
theorem group_forms {gs : List Token} (word : t.kind = .keyword .aleatoire)
    (mark : p.kind = .symbol .leftParen) (close : q.kind = .symbol .rightParen)
    (balanced : Balanced gs) (line : ∀ g ∈ gs, g.kind ≠ .layout .newline) :
    (argumentGroup? (p :: (gs ++ q :: rest)) = some (gs ++ q :: rest) ↔
      gs = [] ∨ Separated 0 gs) ∧
    (gs = [] ∨ Separated 0 gs →
      Reader.primary (t :: p :: (gs ++ q :: rest)) = Reader.draw t.position (gs ++ q :: rest)) ∧
    (¬(gs = [] ∨ Separated 0 gs) →
      Reader.primary (t :: p :: (gs ++ q :: rest)) =
        Reader.range t.position (p :: (gs ++ q :: rest))) := by
  have lists := listsArguments_group close rest balanced line
  refine ⟨?_, fun found => primary_lists word mark (lists.mpr found), fun none => ?_⟩
  · rw [argumentGroup?_paren mark, ← lists]
    simp
  · exact primary_bounds word mark (by simpa using mt lists.mp none)

end Forms

/-- Up to places, a built-in function is read alike before its operand and with a group of it, and a
random number between two bounds alike with a word between them and with a group of both. Behind
the word for a random number a balanced group is a list of arguments exactly if it is empty or has
a comma outside all inner groups. -/
theorem forms_agree :
    (∀ (f : Builtin) (operand : Expr) (t t' p q : Token) (ts ts' rest rest' : List Token),
      t.kind = .builtin f → p.kind = .symbol .leftParen → q.kind = .symbol .rightParen →
      t.unplaced = t'.unplaced → ts.map Token.unplaced = ts'.map Token.unplaced →
      Lacks (.symbol .leftParen) ts →
      outcome (expression .postfixes (ts ++ rest)) = .ok (operand, rest) →
      ReadsAlike (.call t.position f.function [operand]) (t :: (ts ++ rest)) rest
        (t' :: p :: (ts' ++ q :: rest')) rest') ∧
    (∀ (low high : Expr) (t t' w p c q : Token) (ms ms' ns ns' rest rest' : List Token),
      t.kind = .keyword .aleatoire → w.kind = .identifier →
      Lexeme.lowered w.lexeme.toList = "a" → p.kind = .symbol .leftParen →
      c.kind = .symbol .comma → q.kind = .symbol .rightParen → t.unplaced = t'.unplaced →
      ms.map Token.unplaced = ms'.map Token.unplaced →
      ns.map Token.unplaced = ns'.map Token.unplaced →
      outcome (expression (.chain .sum) (ms ++ w :: (ns ++ rest))) =
        .ok (low, w :: (ns ++ rest)) →
      outcome (expression (.chain .sum) (ns ++ rest)) = .ok (high, rest) →
      ReadsAlike (.call t.position "aleatoire" [low, high]) (t :: (ms ++ w :: (ns ++ rest))) rest
        (t' :: p :: (ms' ++ c :: (ns' ++ q :: rest'))) rest') ∧
    ∀ (t p q : Token) (gs rest : List Token), t.kind = .keyword .aleatoire →
      p.kind = .symbol .leftParen → q.kind = .symbol .rightParen → Balanced gs →
      (∀ g ∈ gs, g.kind ≠ .layout .newline) →
      (argumentGroup? (p :: (gs ++ q :: rest)) = some (gs ++ q :: rest) ↔
        gs = [] ∨ Separated 0 gs) ∧
      (gs = [] ∨ Separated 0 gs →
        Reader.primary (t :: p :: (gs ++ q :: rest)) =
          Reader.draw t.position (gs ++ q :: rest)) ∧
      (¬(gs = [] ∨ Separated 0 gs) →
        Reader.primary (t :: p :: (gs ++ q :: rest)) =
          Reader.range t.position (p :: (gs ++ q :: rest))) := by
  refine ⟨?_, ?_, ?_⟩
  · intro f operand t t' p q ts ts' rest rest' word mark close place same bare read
    exact builtin_forms word mark close place same bare read
  · intro low high t t' w p c q ms ms' ns ns' rest rest' word name between mark comma close place
      same same' read read'
    exact range_forms word name between mark comma close place same same' read read'
  · intro t p q gs rest word mark close balanced line
    exact group_forms word mark close balanced line

theorem forms_agree_draw :
    let sign (symbol : Symbol) (text : String) (column : Nat) : Token :=
      ⟨.symbol symbol, .str text, ⟨1, column⟩⟩
    let name (text : String) (column : Nat) : Token := ⟨.identifier, .str text, ⟨1, column⟩⟩
    let number (n : Int) (column : Nat) : Token := ⟨.number, .int n, ⟨1, column⟩⟩
    let abs : Token := ⟨.builtin .abs, .str "abs", ⟨1, 1⟩⟩
    let draw : Token := ⟨.keyword .aleatoire, .str "aleatoire", ⟨1, 1⟩⟩
    let bare := abs :: ([name "x" 5] ++ [.newline ⟨1, 6⟩])
    let grouped := abs :: sign .leftParen "(" 4 ::
      ([name "x" 5] ++ sign .rightParen ")" 6 :: [.newline ⟨1, 7⟩])
    let low := [sign .leftParen "(" 11, number 1 12, sign .rightParen ")" 13]
    let between := draw :: (low ++ name "a" 15 :: ([number 2 17] ++ [.newline ⟨1, 18⟩]))
    let pair := draw :: sign .leftParen "(" 10 :: (low ++ sign .comma "," 14 ::
      ([number 2 16] ++ sign .rightParen ")" 17 :: [.newline ⟨1, 18⟩]))
    let group := [name "f" 11, sign .leftParen "(" 12, number 1 13, sign .comma "," 14, number 2 16,
      sign .rightParen ")" 17]
    let inner := sign .leftParen "(" 10 ::
      (group ++ sign .rightParen ")" 18 :: [.newline ⟨1, 19⟩])
    tokenize "abs x\n" = .ok (bare ++ [.eof ⟨2, 1⟩]) ∧
      tokenize "abs(x)\n" = .ok (grouped ++ [.eof ⟨2, 1⟩]) ∧
      ReadsAlike (.call ⟨1, 1⟩ "abs" [.identifier ⟨1, 5⟩ "x"]) bare [.newline ⟨1, 6⟩] grouped
        [.newline ⟨1, 7⟩] ∧
      tokenize "aleatoire (1) a 2\n" = .ok (between ++ [.eof ⟨2, 1⟩]) ∧
      tokenize "aleatoire((1), 2)\n" = .ok (pair ++ [.eof ⟨2, 1⟩]) ∧
      ReadsAlike (.call ⟨1, 1⟩ "aleatoire" [.literal ⟨1, 12⟩ (.int 1), .literal ⟨1, 17⟩ (.int 2)])
        between [.newline ⟨1, 18⟩] pair [.newline ⟨1, 18⟩] ∧
      tokenize "aleatoire(f(1, 2))\n" = .ok (draw :: inner ++ [.eof ⟨2, 1⟩]) ∧
      Reader.primary (draw :: inner) = Reader.range ⟨1, 1⟩ inner := by
  intro sign name number abs draw bare grouped low between pair group inner
  have operand : outcome (expression .postfixes ([name "x" 5] ++ [.newline ⟨1, 6⟩])) =
      .ok (.identifier ⟨1, 5⟩ "x", [.newline ⟨1, 6⟩]) := by cbv
  have first : outcome (expression (.chain .sum)
      (low ++ name "a" 15 :: ([number 2 17] ++ [.newline ⟨1, 18⟩]))) =
      .ok (.literal ⟨1, 12⟩ (.int 1), name "a" 15 :: ([number 2 17] ++ [.newline ⟨1, 18⟩])) := by
    cbv
  have second : outcome (expression (.chain .sum) ([number 2 17] ++ [.newline ⟨1, 18⟩])) =
      .ok (.literal ⟨1, 17⟩ (.int 2), [.newline ⟨1, 18⟩]) := by cbv
  obtain ⟨builtins, bounds, groups⟩ := forms_agree
  refine ⟨by decide +kernel, by decide +kernel, ?_, by decide +kernel, by decide +kernel, ?_,
    by decide +kernel, ?_⟩
  · exact builtins .abs _ abs abs _ (sign .rightParen ")" 6) _ [name "x" 5] _ _ rfl rfl rfl rfl rfl
      (lacks_of_kind rfl (by decide)) operand
  · exact bounds _ _ draw draw _ _ _ (sign .rightParen ")" 17) low low _ [number 2 16] _ _ rfl rfl
      (by decide +kernel) rfl rfl rfl rfl rfl rfl first second
  · exact (groups draw _ _ group _ rfl rfl rfl (by decide) (by decide)).2.2 (by decide)

end Miaou.Grammar
