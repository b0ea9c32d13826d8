import Miaou.Diagnostic.Basic

/-!
Raising a fault while a script is read. Where something is wrong, the reader has the catalog word
the diagnostic and halts with it. A code that is not in the catalog cannot be worded, and the reader
halts with that.
-/

namespace Miaou

/-- What a reader has at hand to tell what is wrong. -/
structure Reporter where
  catalog : Catalog
  file : String
  lines : List String
  deriving DecidableEq, Repr

/-- Why a reader stops before its end. -/
inductive Halt where
  | rejected (diagnostic : Diagnostic)
  | unworded (code : Unregistered)
  | exhausted
  deriving DecidableEq, Repr

namespace Reporter

variable (r : Reporter)

def raise (code : Code) (expected : Option String) (p : Position) (text : String) : Halt :=
  match r.catalog.raise code r.file p text (some r.lines) with
  | .error unknown => .unworded unknown
  | .ok d =>
    match expected with
    | none => .rejected d
    | some expected => .rejected (d.withVar "expected" expected)

/-- How a reader halts that tells a fault by its cause. -/
def halt (fault : Fault) : Halt :=
  match r.catalog.judge r.file r.lines fault with
  | .error unknown => .unworded unknown
  | .ok d => .rejected d

variable {r}

/-- A fault is raised by the code of its cause and what the cause expects. -/
theorem raise_eq_halt (fault : Fault) {code : Code} {expected : Option String}
    (same : fault.cause.code = code) (names : fault.cause.expected? = expected) :
    r.raise code expected fault.position fault.text = r.halt fault := by
  subst same names
  rw [raise, halt, Catalog.judge]
  cases r.catalog.raise fault.cause.code r.file fault.position fault.text (some r.lines) with
  | error unknown => rfl
  | ok d => cases fault.cause.expected? <;> rfl

theorem halt_ne_exhausted (fault : Fault) : r.halt fault ≠ .exhausted := by
  rw [halt]
  split <;> exact nofun

end Reporter

end Miaou
