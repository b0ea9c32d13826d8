import Miaou.Proofs.Lines
import Miaou.Proofs.Token.Scan
import Miaou.Token.Layout

/-!
Where the pieces of a script are found. Each piece is placed at a character of the script, and
what it says was read from that character on.
-/

namespace Miaou

namespace Piece

/-- A piece that was read from the text `cs`. -/
inductive Found (cs : List Char) : Piece → Prop where
  | content {done rest : List Char} {c : Char} (width : Nat) (here : cs = done ++ c :: rest)
      (begins : Begins c) : Found cs (.content width (Position.start.after done))
  | newline {done rest : List Char} (here : cs = done ++ '\n' :: rest) :
      Found cs (.token (.newline (Position.start.after done)))
  | token {done rest : List Char} {c : Char} {l : Lexeme} (here : cs = done ++ c :: rest)
      (begins : Begins c) (read : Lexeme.read c rest = .ok l) :
      Found cs (.token ⟨l.kind, l.payload, Position.start.after done⟩)
  | broken {done rest : List Char} {c : Char} {e : Misreading} (here : cs = done ++ c :: rest)
      (begins : Begins c) (read : Lexeme.read c rest = .error e) :
      Found cs (.broken ⟨e.cause, Position.start.after done, String.ofList e.text⟩)

def position : Piece → Position
  | .content _ first => first
  | .token t => t.position
  | .broken fault => fault.position

def token? : Piece → Option Token
  | .token t => some t
  | _ => none

theorem scan_found {fresh : Bool} {done rest : List Char} {pieces : List Piece}
    (h : Scan fresh done rest pieces) : ∀ piece ∈ pieces, Found (done ++ rest) piece := by
  induction h with
  | finish idle => exact fun piece found => nomatch found
  | idle idle more ih => simpa using ih
  | content blank begins more ih =>
    rw [List.forall_mem_cons, ← List.append_assoc]
    exact ⟨.content _ rfl begins, ih⟩
  | newline idle more ih =>
    rw [List.forall_mem_cons, ← List.append_assoc]
    exact ⟨.newline rfl, by simpa using ih⟩
  | token blank begins read more ih =>
    rw [List.append_assoc _ _ (List.drop _ _), List.take_append_drop] at ih
    rw [List.forall_mem_cons, ← List.append_assoc]
    exact ⟨.token rfl begins read, ih⟩
  | broken blank begins read =>
    rw [List.forall_mem_singleton, ← List.append_assoc]
    exact .broken rfl begins read

theorem ofScript_found (cs : List Char) : ∀ piece ∈ ofScript cs, Found cs piece :=
  scan_found (scan_ofScript cs)

theorem Found.within {cs : List Char} {piece : Piece} (h : Found cs piece) :
    piece.position.Within cs := by
  cases h with
  | content width here begins => exact ⟨_, _, here, rfl⟩
  | newline here => exact ⟨_, _, here, rfl⟩
  | token here begins read => exact ⟨_, _, here, rfl⟩
  | broken here begins read => exact ⟨_, _, here, rfl⟩

theorem Found.kind {cs : List Char} {t : Token} (h : Found cs (.token t)) :
    t.kind.isLayout = false ∨ t.kind = .layout .newline := by
  cases h with
  | newline here => exact .inr rfl
  | token here begins read => exact .inl (Lexeme.read_isLayout read)

end Piece

end Miaou
