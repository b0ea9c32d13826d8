import Miaou.Fault
import Miaou.Token.Basic

/-!
Reading from a list of tokens. A successful reading leaves fewer tokens than a bound, so readers
that call one another come to an end; a failure keeps what was left, from the offending token on.
No list here holds an end token: the end is where the list is empty.
-/

namespace Miaou.Grammar

structure Failure where
  cause : Cause
  rest : List Token
  deriving DecidableEq, Repr

structure Read (α : Type) (bound : Nat) where
  value : α
  rest : List Token
  rest_lt : rest.length < bound

def expect (kind : Kind) (cause : Cause) : (ts : List Token) →
    Except Failure (Read Token ts.length)
  | [] => .error ⟨cause, []⟩
  | t :: rest => if t.kind = kind then .ok ⟨t, rest, Nat.lt_succ_self _⟩
    else .error ⟨cause, t :: rest⟩

def expectColon (ts : List Token) : Except Failure (Read Token ts.length) :=
  expect (.symbol .colon) (.missingElement .colon) ts

def expectName (element : Element) (ts : List Token) : Except Failure (Read Token ts.length) :=
  expect .identifier (.missingElement element) ts

def skip (kind : Kind) : List Token → List Token
  | [] => []
  | t :: rest => if t.kind = kind then rest else t :: rest

def skipNewlines (ts : List Token) : List Token :=
  ts.dropWhile fun t => t.kind = .layout .newline

theorem skip_length_le (kind : Kind) (ts : List Token) : (skip kind ts).length ≤ ts.length := by
  cases ts with
  | nil => exact Nat.le_refl _
  | cons t rest =>
    simp only [skip]
    split <;> simp

theorem skipNewlines_length_le (ts : List Token) : (skipNewlines ts).length ≤ ts.length :=
  (List.dropWhile_suffix _).length_le

theorem length_le_of_skipNewlines {ts us : List Token} (h : skipNewlines ts = us) :
    us.length ≤ ts.length := h ▸ skipNewlines_length_le ts

end Miaou.Grammar
