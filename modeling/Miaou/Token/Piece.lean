import Miaou.Token.Lexeme

/-!
A script in pieces. Reading a script yields the places where lines with content begin, each with
the width of its indentation, and the tokens on those lines, a line feed after content among them.
Lines that hold only blanks and a comment leave no piece. Reading stops at the first character
run that is no lexeme.
-/

namespace Miaou

inductive Piece where
  /-- A line with content begins, indented by `width`; its first lexeme is at `first`. -/
  | content (width : Nat) (first : Position)
  | token (token : Token)
  | broken (fault : Fault)
  deriving DecidableEq, Repr

namespace Piece

def blankWidth (c : Char) : Nat :=
  if c = ' ' then 1 else if c = '\t' then 4 else 0

def indentation : List Char → Nat
  | [] => 0
  | c :: cs => blankWidth c + indentation cs

def skipComment : List Char → List Char
  | '#' :: cs => cs.dropWhile (· ≠ '\n')
  | cs => cs

def comment (cs : List Char) : List Char := cs.takeWhile (· ≠ '\n')

theorem skipComment_length_le (cs : List Char) : (skipComment cs).length ≤ cs.length := by
  unfold skipComment
  split
  · exact Nat.le_succ_of_le (List.dropWhile_suffix _).length_le
  · exact Nat.le_refl _

mutual

/-- The pieces of a text that stands at the beginning of a line. -/
def ofLine (line : Nat) (cs : List Char) : List Piece :=
  let blanks := cs.takeWhile Lexeme.isInline
  let body := cs.dropWhile Lexeme.isInline
  match _h : skipComment body with
  | [] => []
  | c :: rest =>
    if c = '\n' then ofLine (line + 1) rest
    else
      let first := Position.after ⟨line, 1⟩ blanks
      .content (indentation blanks) first :: ofContent first body
termination_by 2 * cs.length + 1
decreasing_by
  · have shorter := congrArg List.length _h
    have atMost := skipComment_length_le body
    have inside : body.length ≤ cs.length := (List.dropWhile_suffix Lexeme.isInline).length_le
    simp only [List.length_cons] at shorter
    omega
  · have inside : (cs.dropWhile Lexeme.isInline).length ≤ cs.length :=
      (List.dropWhile_suffix _).length_le
    omega

def ofContent (p : Position) (cs : List Char) : List Piece :=
  match cs with
  | [] => []
  | c :: rest =>
    if c = '\n' then .token (.newline p) :: ofLine (p.line + 1) rest
    else if Lexeme.isInline c then ofContent (p.next c) rest
    else if c = '#' then
      ofContent (p.after (c :: comment rest)) (rest.dropWhile (· ≠ '\n'))
    else
      match _h : Lexeme.read c rest with
      | .error e => [.broken ⟨e.cause, p, String.ofList e.text⟩]
      | .ok l =>
        .token ⟨l.kind, l.payload, p⟩ ::
          ofContent (p.after ((c :: rest).take l.size)) ((c :: rest).drop l.size)
termination_by 2 * cs.length
decreasing_by
  · simp only [List.length_cons]
    omega
  · simp only [List.length_cons]
    omega
  · have inside : (rest.dropWhile (· ≠ '\n')).length ≤ rest.length :=
      (List.dropWhile_suffix _).length_le
    simp only [List.length_cons]
    omega
  · have taken := Lexeme.read_size_pos _h
    simp only [List.length_drop, List.length_cons]
    omega

end

def ofScript (cs : List Char) : List Piece := ofLine 1 cs

end Piece

end Miaou
