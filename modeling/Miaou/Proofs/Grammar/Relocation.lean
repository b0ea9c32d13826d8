import Miaou.Proofs.Grammar.StmtLikeness
import Miaou.Proofs.Relocation

/-!
Reading does not look at places. A reader that is given the same tokens at other places reads the
same thing, at these places, and stops or fails at the same token. The payload of a layout token
is not looked at either.
-/

namespace Miaou

namespace Grammar

variable {α : Type} {f : Position → Position}

def moved (f : Position → Position) (g : α → α) :
    Except Failure (α × List Token) → Except Failure (α × List Token)
  | .ok (value, rest) => .ok (g value, rest.map (Token.relocate f))
  | .error failure => .error ⟨failure.cause, failure.rest.map (Token.relocate f)⟩

theorem literal?_relocate (t : Token) :
    literal? (t.relocate f).kind (t.relocate f).payload = literal? t.kind t.payload := by
  obtain ⟨kind, payload, pos⟩ := t
  cases kind <;> rfl

theorem map_eq_of_forall₂ {β : Type} {g : α → β} {as : List α} {bs : List β}
    (h : List.Forall₂ (fun a b => g a = b) as bs) : as.map g = bs := by
  have same := List.forall₂_map_left_iff.mpr h
  rwa [List.forall₂_eq_eq_eq] at same

theorem relocateAll_of_forall₂ {es es' : List Expr}
    (h : List.Forall₂ (fun e e' => e.relocate f = e') es es') : Expr.relocateAll f es = es' :=
  (Expr.relocateAll_eq_map f es).trans (map_eq_of_forall₂ h)

theorem relocateBlock_of_forall₂ {ss ss' : List Stmt}
    (h : List.Forall₂ (fun s s' => s.relocate f = s') ss ss') : Stmt.relocateBlock f ss = ss' := by
  induction h with
  | nil => rfl
  | cons same _ ih => rw [Stmt.relocateBlock, same, ih]

theorem relocateClauses_of_forall₂ {cs cs' : List (Expr × List Stmt)}
    (h : List.Forall₂ (fun c c' => c.1.relocate f = c'.1 ∧
      List.Forall₂ (fun s s' => s.relocate f = s') c.2 c'.2) cs cs') :
    Stmt.relocateClauses f cs = cs' := by
  induction h with
  | nil => rfl
  | cons same _ ih =>
    rw [Stmt.relocateClauses, same.1, relocateBlock_of_forall₂ same.2, ih]

/-- Tokens and programs are alike when they are the same at other places. -/
def relocation (f : Position → Position) : Likeness where
  token t t' := t.relocate f = t'
  pointed t t' := t.relocate f = t'
  expr e e' := e.relocate f = e'
  stmt s s' := s.relocate f = s'
  program p p' := p.relocate f = p'
  kind := by
    rintro t _ rfl
    rfl
  name := by
    rintro t _ rfl _
    exact t.lexeme_relocate f
  path := by
    rintro e _ rfl
    simp
  isItem := by
    rintro e _ rfl
    cases e <;> rfl
  literal := by
    rintro t _ rfl
    rw [literal?_relocate]
    cases literal? t.kind t.payload with
    | none => exact .none
    | some value => exact .some rfl
  identifier := by
    rintro t _ rfl name
    rfl
  unary := by
    rintro t _ e _ rfl op rfl
    rfl
  binary := by
    rintro e _ d _ rfl op rfl
    rw [Expr.relocate, Expr.position_relocate]
  function := by
    rintro t _ es es' rfl name given
    rw [Expr.relocate, relocateAll_of_forall₂ given]
    rfl
  call := by
    rintro e _ function function' es es' rfl path path' given
    rw [Expr.path?_relocate, path] at path'
    cases path'
    rw [Expr.relocate, relocateAll_of_forall₂ given, Expr.position_relocate]
  list := by
    rintro t _ es es' rfl items
    rw [Expr.relocate, relocateAll_of_forall₂ items]
    rfl
  dict := by
    rintro t _ ps ps' rfl entries
    have same : ps.map (fun p => (p.1.relocate f, p.2.relocate f)) = ps' :=
      map_eq_of_forall₂ (entries.imp fun p p' like => Prod.ext like.1 like.2)
    rw [Expr.relocate, Expr.relocateEntries_eq_map, same]
    rfl
  item := by
    rintro e _ d _ rfl rfl
    rw [Expr.relocate, Expr.position_relocate]
  member := by
    rintro t _ e _ rfl rfl _
    simp [Expr.relocate]
  assign := by
    rintro t _ e _ rfl name rfl
    rfl
  assignIndex := by
    rintro t _ p p' o o' i i' e _ rfl target rfl
    cases target
    rfl
  branch := by
    rintro t _ e _ ss ss' cs cs' os os' rfl rfl body clauses otherwise
    have last : Stmt.relocateOtherwise f os = os' := by
      cases otherwise with
      | none => rfl
      | some block => exact congrArg some (relocateBlock_of_forall₂ block)
    rw [Stmt.relocate, relocateBlock_of_forall₂ body, relocateClauses_of_forall₂ clauses, last]
    rfl
  whileLoop := by
    rintro t _ e _ ss ss' rfl rfl body
    rw [Stmt.relocate, relocateBlock_of_forall₂ body]
    rfl
  repeatLoop := by
    rintro t _ e _ ss ss' rfl rfl body
    rw [Stmt.relocate, relocateBlock_of_forall₂ body]
    rfl
  forEach := by
    rintro t _ e _ ss ss' rfl name rfl body
    rw [Stmt.relocate, relocateBlock_of_forall₂ body]
    rfl
  define := by
    rintro t _ ss ss' rfl name names body
    rw [Stmt.relocate, relocateBlock_of_forall₂ body]
    rfl
  giveBack := by
    rintro t _ e e' rfl value
    cases value with
    | none => rfl
    | some same =>
      cases same
      rfl
  attempt := by
    rintro t _ ss ss' hs hs' rfl body handler
    rw [Stmt.relocate, relocateBlock_of_forall₂ body, relocateBlock_of_forall₂ handler]
    rfl
  importModule := by
    rintro t _ rfl name
    rfl
  named := by
    rintro t _ e _ rfl rfl
    rfl
  bare := by
    rintro e _ rfl
    rw [Stmt.relocate, Expr.position_relocate]
  script := by
    rintro t _ ss ss' rfl body
    rw [Program.relocate, relocateBlock_of_forall₂ body]
    rfl

theorem tokens_relocate (ts : List Token) :
    (relocation f).Tokens ts (ts.map (Token.relocate f)) :=
  Likeness.tokens_of_forall₂ id
    (List.forall₂_map_right_iff.mpr (List.forall₂_same.mpr fun _ _ => rfl))

theorem expression_relocate (level : Level) (ts : List Token) :
    outcome (expression level (ts.map (Token.relocate f))) =
      moved f (Expr.relocate f) (outcome (expression level ts)) := by
  have read := Likeness.expression level (@tokens_relocate f ts)
  generalize outcome (expression level ts) = found at read
  generalize outcome (expression level (ts.map (Token.relocate f))) = found' at read
  cases read with
  | ok same rest => rw [moved, same, map_eq_of_forall₂ rest.forall₂]
  | error cause rest => rw [moved, map_eq_of_forall₂ rest.forall₂]

theorem statement_relocate (ts : List Token) :
    outcome (statement (ts.map (Token.relocate f))) =
      moved f (Stmt.relocate f) (outcome (statement ts)) := by
  have read := (relocation f).stmtAlike .statement ts (tokens_relocate ts)
  change (relocation f).Reads _ (outcome (statement ts)) (outcome (statement (ts.map _))) at read
  generalize outcome (statement ts) = found at read
  generalize outcome (statement (ts.map (Token.relocate f))) = found' at read
  cases read with
  | ok same rest => rw [moved, same, map_eq_of_forall₂ rest.forall₂]
  | error cause rest => rw [moved, map_eq_of_forall₂ rest.forall₂]

theorem script_relocate (f : Position → Position) (ts : List Token) :
    script (ts.map (Token.relocate f)) =
      ((script ts).map (Program.relocate f)).mapError fun failure =>
        ⟨failure.cause, failure.rest.map (Token.relocate f)⟩ := by
  have read := Likeness.reads_script (@tokens_relocate f ts)
  generalize script ts = found at read
  generalize script (ts.map (Token.relocate f)) = found' at read
  cases read with
  | ok same => exact congrArg Except.ok same.symm
  | error cause rest =>
    rw [← map_eq_of_forall₂ rest.forall₂]
    rfl

end Grammar

end Miaou
