import Miaou.Proofs.Token.Layout
import Miaou.Proofs.Token.Yield

/-!
Whole lines. A line of content is its indentation and a stretch of tokens; its layout tokens depend
on the open blocks alone.
-/

namespace Miaou

namespace Piece

open Text Lexeme

@[simp] theorem indentation_replicate (width : Nat) :
    indentation (List.replicate width ' ') = width := by
  induction width with
  | zero => rfl
  | succ width ih =>
    rw [List.replicate_succ, indentation, ih]
    exact Nat.add_comm 1 width

theorem isInline_replicate (width : Nat) :
    ∀ c ∈ List.replicate width ' ', isInline c = true := by
  intro c hc
  rw [List.eq_of_mem_replicate hc]
  rfl

theorem ofLine_begins {c : Char} (begins : Begins c) (rest : List Char) (line width : Nat) :
    ofLine line (List.replicate width ' ' ++ c :: rest) =
      .content width (Position.after ⟨line, 1⟩ (List.replicate width ' ')) ::
        ofContent (Position.after ⟨line, 1⟩ (List.replicate width ' ')) (c :: rest) := by
  obtain ⟨inline, newline, note⟩ := begins
  have blanks := isInline_replicate width
  have stop : Stops isInline (c :: rest) := stops_cons.mpr inline
  have kept : skipComment (c :: rest) = c :: rest := by
    unfold skipComment
    split
    · rename_i same
      cases same
      exact absurd rfl note
    · rfl
  have left := dropWhile_run blanks stop
  have content := @ofLine_content line (List.replicate width ' ' ++ c :: rest) rest c
    (by rw [left, kept]) newline
  rwa [left, takeWhile_run blanks stop, indentation_replicate] at content

theorem ofLine_yields {cs rest : List Char} {gs : List Token} (begins : ∃ c ∈ cs.head?, Begins c)
    (yields : Yields cs gs rest) (line width : Nat) :
    ∃ (first behind : Position) (ts : List Token),
      ofLine line (List.replicate width ' ' ++ (cs ++ rest)) =
        .content width first :: (ts.map Piece.token ++ ofContent behind rest) ∧
      ts.map Token.unplaced = gs := by
  obtain ⟨c, head, begins⟩ := begins
  cases cs with
  | nil => cases head
  | cons d cs =>
    cases head
    obtain ⟨ts, read, same⟩ := yields (Position.after ⟨line, 1⟩ (List.replicate width ' '))
    have content := ofLine_begins begins (cs ++ rest) line width
    rw [← List.cons_append, read] at content
    exact ⟨_, _, ts, content, same⟩

end Piece

namespace Layout

@[simp] theorem lay_tokens (blocks : List Nat) (ts : List Token) :
    lay blocks (ts.map Piece.token) = .ok (ts, blocks) := by
  induction ts with
  | nil => rfl
  | cons t ts ih =>
    rw [List.map_cons, lay, ih]
    rfl

end Layout

theorem tokenize_yields {text : String} {gs : List Token}
    (begins : ∃ c ∈ text.toList.head?, Piece.Begins c) (yields : Piece.Yields text.toList gs []) :
    ∃ ts finish, tokenize text = .ok (ts ++ [.eof finish]) ∧ ts.map Token.unplaced = gs := by
  obtain ⟨first, behind, ts, pieces, same⟩ := Piece.ofLine_yields begins yields 1 0
  refine ⟨ts, Position.start.after text.toList, ?_, same⟩
  rw [List.replicate_zero, List.nil_append, List.append_nil, Piece.ofContent_nil] at pieces
  have body (finish : Position) : Layout.tokens finish [] (ts.map Piece.token ++ []) =
      .ok (ts ++ [.eof finish]) := by
    rw [Layout.tokens_append, Layout.lay_tokens]
    rfl
  rw [tokenize, Piece.ofScript, pieces, Layout.tokens]
  exact congrArg (Except.map _) (body _)

end Miaou
