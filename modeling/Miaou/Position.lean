import Miaou.Number.Digits

/-!
Places in a text. A position is a line and a column, both counted from one in characters.
`Position.after` moves over characters that have been read and `Position.offset` counts the
characters before a place; a place beyond the text counts as its end.
-/

namespace Miaou

structure Position where
  line : Nat
  column : Nat
  deriving DecidableEq, Repr, Inhabited

namespace Position

def start : Position := ⟨1, 1⟩

def next (p : Position) (c : Char) : Position :=
  if c = '\n' then ⟨p.line + 1, 1⟩ else ⟨p.line, p.column + 1⟩

def after (p : Position) (cs : List Char) : Position := cs.foldl next p

/-- Skips `lines` line feeds and then at most `columns` characters of the line reached. -/
def countTo (columns : Nat) : (lines : Nat) → List Char → Nat
  | 0, cs => min columns (cs.takeWhile (· ≠ '\n')).length
  | _ + 1, [] => 0
  | lines + 1, c :: cs =>
    if c = '\n' then countTo columns lines cs + 1 else countTo columns (lines + 1) cs + 1

def offset (p : Position) (cs : List Char) : Nat := countTo (p.column - 1) (p.line - 1) cs

/-- Reading order: by line, then by column. -/
def atMost (p q : Position) : Bool :=
  p.line < q.line || p.line == q.line && p.column ≤ q.column

def sort (ps : List Position) : List Position := ps.mergeSort atMost

def text (p : Position) : String := Digits.text p.line ++ ":" ++ Digits.text p.column

@[simp] theorem after_nil (p : Position) : p.after [] = p := rfl

@[simp] theorem after_cons (p : Position) (c : Char) (cs : List Char) :
    p.after (c :: cs) = (p.next c).after cs := rfl

@[simp] theorem after_append (p : Position) (cs ds : List Char) :
    p.after (cs ++ ds) = (p.after cs).after ds := List.foldl_append

end Position

end Miaou
