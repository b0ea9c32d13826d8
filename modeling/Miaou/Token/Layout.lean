import Miaou.Token.Piece

/-!
Layout tokens. A line that is indented further than the block it stands in opens a block; a line
indented less closes blocks until its own indentation is met, and that must be the indentation of
a block still open. The blocks left open at the end of the script are closed there.
-/

namespace Miaou.Layout

/-- The layout tokens before a line of the given width, and the widths of the blocks open after
it. Open blocks are listed from the innermost; outside of all blocks the width is zero. -/
def adjust (line width : Nat) (blocks : List Nat) : Option (List Token × List Nat) :=
  if blocks.headD 0 < width then some ([.indent width line], width :: blocks)
  else
    let closed := blocks.takeWhile (width < ·)
    let still := blocks.dropWhile (width < ·)
    if still.headD 0 = width then some (closed.map fun _ => .dedent width ⟨line, 1⟩, still)
    else none

def tokens (finish : Position) : List Nat → List Piece → Except Fault (List Token)
  | blocks, [] => .ok (blocks.map (fun _ => .dedent 0 finish) ++ [.eof finish])
  | blocks, .token t :: pieces => (tokens finish blocks pieces).map (t :: ·)
  | _, .broken fault :: _ => .error fault
  | blocks, .content width first :: pieces =>
    match adjust first.line width blocks with
    | none => .error ⟨.badIndentation, first, ""⟩
    | some (marks, still) => (tokens finish still pieces).map (marks ++ ·)

end Miaou.Layout

namespace Miaou

/-- The tokens of a script, with its layout; the last one marks the end. -/
def tokenize (source : String) : Except Fault (List Token) :=
  Layout.tokens (Position.start.after source.toList) [] (Piece.ofScript source.toList)

end Miaou
