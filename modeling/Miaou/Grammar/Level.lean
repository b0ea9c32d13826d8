import Miaou.Syntax.Expr
import Miaou.Token.Kind

/-!
The levels of the expression grammar, from the operators that bind least to those that bind most.
Five levels are chains: operators of equal strength that associate to the left.
-/

namespace Miaou.Grammar

inductive Chain where
  | disjunction | conjunction | comparison | sum | product
  deriving DecidableEq, Repr

inductive Level where
  | chain (chain : Chain)
  | negation
  | power
  | sign
  | postfixes
  deriving DecidableEq, Repr

namespace Chain

def operands : Chain → Level
  | .disjunction => .chain .conjunction
  | .conjunction => .negation
  | .comparison => .chain .sum
  | .sum => .chain .product
  | .product => .power

def operator? : Chain → Kind → Option BinaryOp
  | .disjunction, .keyword .ou => some .or
  | .conjunction, .keyword .et => some .and
  | .comparison, .symbol .assign => some .eq
  | .comparison, .symbol .equal => some .eqEq
  | .comparison, .symbol .notEqual => some .notEq
  | .comparison, .symbol .less => some .lt
  | .comparison, .symbol .greater => some .gt
  | .comparison, .symbol .lessEqual => some .ltEq
  | .comparison, .symbol .greaterEqual => some .gtEq
  | .sum, .symbol .plus => some .add
  | .sum, .symbol .minus => some .sub
  | .product, .symbol .star => some .mul
  | .product, .symbol .slash => some .div
  | .product, .symbol .slashSlash => some .floorDiv
  | .product, .symbol .percent => some .mod
  | _, _ => none

end Chain

namespace Level

def lowest : Level := .chain .disjunction

def rank : Level → Nat
  | .chain .disjunction => 9
  | .chain .conjunction => 8
  | .negation => 7
  | .chain .comparison => 6
  | .chain .sum => 5
  | .chain .product => 4
  | .power => 3
  | .sign => 2
  | .postfixes => 1

theorem rank_le (level : Level) : level.rank ≤ 9 := by
  cases level with
  | chain c => cases c <;> decide
  | _ => decide

theorem rank_operands (c : Chain) : c.operands.rank < (Level.chain c).rank := by
  cases c <;> decide

end Level

end Miaou.Grammar
