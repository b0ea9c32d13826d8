import Miaou.Proofs.Grammar.StmtOutcome

/-!
Induction over readings. Readers call one another with fewer tokens than they have themselves or,
before they take one, for a goal of lower rank. So what follows for each goal from the goals it
calls holds of every goal at all tokens.
-/

namespace Miaou.Grammar

abbrev Reader (α : Type) := List Token → Except Failure (α × List Token)

namespace Reader

def expression (level : Level) : Reader Expr := fun ts => outcome (Grammar.expression level ts)

def operations (c : Chain) (left : Expr) : Reader Expr := fun ts =>
  outcome (Grammar.operations c left ts)

def exponent (base : Expr) : Reader Expr := fun ts => outcome (Grammar.exponent base ts)

def accesses (object : Expr) : Reader Expr := fun ts => outcome (Grammar.accesses object ts)

def primary : Reader Expr := fun ts => outcome (Grammar.primary ts)

def arguments : Reader (List Expr) := fun ts => outcome (Grammar.arguments ts)

def moreArguments : Reader (List Expr) := fun ts => outcome (Grammar.moreArguments ts)

def entries : Reader (List (Expr × Expr)) := fun ts => outcome (Grammar.entries ts)

def moreEntries : Reader (List (Expr × Expr)) := fun ts => outcome (Grammar.moreEntries ts)

def statement : Reader Stmt := fun ts => outcome (Grammar.statement ts)

def block : Reader (List Stmt) := fun ts => outcome (Grammar.block ts)

def blockBody : Reader (List Stmt) := fun ts => outcome (Grammar.blockBody ts)

def clauses : Reader (List (Expr × List Stmt)) := fun ts => outcome (Grammar.clauses ts)

def otherwise : Reader (Option (List Stmt)) := fun ts => outcome (Grammar.otherwise ts)

def statements : Reader (List Stmt) := fun ts => outcome (Grammar.statements ts)

end Reader

/-! Goals -/

/-- What is to be read of an expression; three goals go on from an operand before them. -/
inductive ExprGoal where
  | expression (level : Level)
  | operations (c : Chain) (left : Expr)
  | exponent (base : Expr)
  | accesses (object : Expr)
  | primary
  | arguments
  | moreArguments
  | entries
  | moreEntries

namespace ExprGoal

@[reducible]
def Value : ExprGoal → Type
  | .arguments | .moreArguments => List Expr
  | .entries | .moreEntries => List (Expr × Expr)
  | _ => Expr

def reader : (goal : ExprGoal) → Reader goal.Value
  | .expression level => Reader.expression level
  | .operations c left => Reader.operations c left
  | .exponent base => Reader.exponent base
  | .accesses object => Reader.accesses object
  | .primary => Reader.primary
  | .arguments => Reader.arguments
  | .moreArguments => Reader.moreArguments
  | .entries => Reader.entries
  | .moreEntries => Reader.moreEntries

def rank : ExprGoal → Nat
  | .expression level => level.rank
  | .arguments | .entries => 10
  | _ => 0

end ExprGoal

inductive StmtGoal where
  | statement
  | block
  | blockBody
  | clauses
  | otherwise
  | statements

namespace StmtGoal

@[reducible]
def Value : StmtGoal → Type
  | .statement => Stmt
  | .clauses => List (Expr × List Stmt)
  | .otherwise => Option (List Stmt)
  | _ => List Stmt

def reader : (goal : StmtGoal) → Reader goal.Value
  | .statement => Reader.statement
  | .block => Reader.block
  | .blockBody => Reader.blockBody
  | .clauses => Reader.clauses
  | .otherwise => Reader.otherwise
  | .statements => Reader.statements

def rank : StmtGoal → Nat
  | .blockBody | .statements => 1
  | _ => 0

end StmtGoal

/-! Calls -/

variable {Goal : Type} {rank : Goal → Nat} {Q : Goal → List Token → Prop} {n m : Nat}

def UpTo (Q : Goal → List Token → Prop) (n : Nat) : Prop :=
  ∀ goal us, us.length ≤ n → Q goal us

namespace UpTo

theorem mono (h : UpTo Q n) (le : m ≤ n) : UpTo Q m :=
  fun goal us le' => h goal us (Nat.le_trans le' le)

theorem after (h : UpTo Q n) (lt : m < n) : UpTo Q m := h.mono (Nat.le_of_lt lt)

theorem here {us : List Token} (h : UpTo Q us.length) (goal : Goal) : Q goal us :=
  h goal us (Nat.le_refl _)

theorem colon {us vs : List Token} {kind : Kind} {t : Token} (h : UpTo Q us.length)
    (mark : outcome (expectColon (skip kind us)) = .ok (t, vs)) : UpTo Q vs.length :=
  (h.mono (skip_length_le kind us)).after (outcome_rest_lt mark)

end UpTo

/-- The property holds of whatever is called for the goal at these tokens. -/
structure Before (rank : Goal → Nat) (Q : Goal → List Token → Prop) (goal : Goal)
    (ts : List Token) : Prop where
  lower (other : Goal) (lt : rank other < rank goal) {us : List Token}
    (le : us.length ≤ ts.length) : Q other us
  shorter (other : Goal) {us : List Token} (lt : us.length < ts.length) : Q other us

namespace Before

variable {goal : Goal} {ts us : List Token}

theorem first (before : Before rank Q goal ts) (other : Goal) (lt : rank other < rank goal) :
    Q other ts := before.lower other lt (Nat.le_refl _)

theorem behind (before : Before rank Q goal ts) (lt : us.length < ts.length) :
    UpTo Q us.length :=
  fun other _ le => before.shorter other (Nat.lt_of_le_of_lt le lt)

theorem rest {t : Token} (before : Before rank Q goal (t :: us)) : UpTo Q us.length :=
  before.behind (Nat.lt_succ_self _)

end Before

/-- What holds of a goal if it holds of all that is called for it, holds of every goal. -/
theorem holds_of_before (rank : Goal → Nat) (step : ∀ goal ts, Before rank Q goal ts → Q goal ts)
    (goal : Goal) (ts : List Token) : Q goal ts :=
  step goal ts
    { lower := fun other _lower {us} _le => holds_of_before rank step other us
      shorter := fun other {us} _shorter => holds_of_before rank step other us }
termination_by (ts.length, rank goal)
decreasing_by
  · rcases Nat.lt_or_eq_of_le _le with less | same
    · exact Prod.Lex.left _ _ less
    · rw [same]
      exact Prod.Lex.right _ _lower
  · exact Prod.Lex.left _ _ _shorter

end Miaou.Grammar
