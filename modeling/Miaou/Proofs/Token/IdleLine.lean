import Miaou.Proofs.Token.Scanner

/-!
Lines without content are not seen. A line of blanks, perhaps with a comment, put in where the
scanner comes to the beginning of a line moves what follows down by one line and changes nothing
else: the tokens before it stay in their places, and a fault behind it is the same fault one line
further down.
-/

namespace Miaou

def Position.down (n : Nat) (p : Position) : Position := ⟨p.line + n, p.column⟩

def Token.down (n : Nat) (t : Token) : Token := { t with position := t.position.down n }

def Fault.down (n : Nat) (fault : Fault) : Fault :=
  { fault with position := fault.position.down n }

def Piece.down (n : Nat) : Piece → Piece
  | .content width first => .content width (first.down n)
  | .token t => .token (t.down n)
  | .broken fault => .broken (fault.down n)

@[simp] theorem Position.next_down (n : Nat) (p : Position) (c : Char) :
    (p.down n).next c = (p.next c).down n := by
  unfold next down
  split
  · rw [Position.mk.injEq]
    exact ⟨Nat.add_right_comm .., rfl⟩
  · rfl

@[simp] theorem Position.after_down (n : Nat) (p : Position) (cs : List Char) :
    (p.down n).after cs = (p.after cs).down n := by
  induction cs generalizing p with
  | nil => rfl
  | cons c cs ih => simp [ih]

def movedDown (n : Nat) : Except Fault (List Token) → Except Fault (List Token)
  | .ok ts => .ok (ts.map (Token.down n))
  | .error fault => .error (fault.down n)

namespace Piece

open Lexeme

theorem down_readings (n : Nat) :
    Readings (fun line cs => ofLine (line + n) cs = (ofLine line cs).map (down n))
      (fun p cs => ofContent (p.down n) cs = (ofContent p cs).map (down n)) where
  finish closed := by
    rw [ofLine_end closed, ofLine_end closed]
    rfl
  idle closed ih := by rw [ofLine_idle closed, ofLine_idle closed, Nat.add_right_comm, ih]
  content {line cs rest c} found begins ih := by
    have moved : Position.after ⟨line + n, 1⟩ (cs.takeWhile isInline) =
        (Position.after ⟨line, 1⟩ (cs.takeWhile isInline)).down n :=
      Position.after_down n ⟨line, 1⟩ _
    rw [ofLine_found found begins, ofLine_found found begins, moved, ih]
    rfl
  ended p := by
    rw [ofContent_nil, ofContent_nil]
    rfl
  newline ih := by
    rw [ofContent_newline, ofContent_newline, List.map_cons, ← ih]
    exact congrArg (_ :: ofLine · _) (Nat.add_right_comm ..)
  blank hc ih := by rw [ofContent_blank _ hc, ofContent_blank _ hc, Position.next_down, ih]
  note ih := by rw [ofContent_comment, ofContent_comment, Position.after_down, ih]
  broken begins read := by
    rw [ofContent_broken _ begins read, ofContent_broken _ begins read]
    rfl
  token begins read ih := by
    rw [ofContent_token _ begins read, ofContent_token _ begins read, Position.after_down, ih]
    rfl

end Piece

namespace Layout

theorem adjust_down (n line width : Nat) (blocks : List Nat) :
    adjust (line + n) width blocks = (adjust line width blocks).map
      fun (marks, still) => (marks.map (Token.down n), still) := by
  unfold adjust
  split
  · rfl
  · simp only
    split
    · simp [Token.down, Token.dedent, Position.down]
    · rfl

theorem tokens_down (n : Nat) (finish : Position) (blocks : List Nat) (pieces : List Piece) :
    tokens (finish.down n) blocks (pieces.map (Piece.down n)) =
      movedDown n (tokens finish blocks pieces) := by
  induction pieces generalizing blocks with
  | nil => simp [tokens, movedDown, Token.down, Token.dedent, Token.eof]
  | cons piece pieces ih =>
    cases piece with
    | broken fault => rfl
    | token t =>
      rw [List.map_cons, Piece.down, tokens, tokens, ih]
      cases tokens finish blocks pieces <;> rfl
    | content width first =>
      have marks : adjust (first.down n).line width blocks = _ :=
        adjust_down n first.line width blocks
      rw [List.map_cons, Piece.down, tokens, tokens, marks]
      cases adjust first.line width blocks with
      | none => rfl
      | some found =>
        simp only [Option.map_some, ih]
        cases tokens finish found.2 pieces with
        | error fault => rfl
        | ok ts => simp [movedDown, Except.map]

end Layout

namespace Scanner

open Piece

def Recorded (x : Scanner) : Prop :=
  ∀ t ∈ x.tokens, t.position.line + x.fresh.toNat ≤ x.position.line

theorem Goes.line_le {x y : Scanner} (h : Goes x y) : x.position.line ≤ y.position.line := by
  obtain ⟨taken, -, done⟩ := h.text
  rw [position, position, done, Position.after_append]
  exact Position.line_le_after _ taken

theorem Goes.recorded {x y : Scanner} (h : Goes x y) (recorded : x.Recorded) : y.Recorded := by
  have further := h.line_le
  cases h.takes with
  | @content done blanks rest c blocks still tokens marks blank begins fits =>
    intro t ht
    rcases List.mem_append.mp ht with ht | ht
    · exact Nat.le_trans (Nat.le_of_succ_le (recorded t ht)) further
    · rw [(Layout.mem_adjust fits t ht).2]
      exact Nat.le_refl _
  | @newline done rest blocks tokens =>
    intro t ht
    have ended := Position.after_newline done
    rcases List.mem_append.mp ht with ht | ht
    · have before := recorded t ht
      change t.position.line + 1 ≤ (Position.start.after (done ++ ['\n'])).line
      rw [ended]
      exact Nat.succ_le_succ before
    · rw [List.mem_singleton.mp ht]
      change (Position.start.after done).line + 1 ≤ (Position.start.after (done ++ ['\n'])).line
      rw [ended]
  | @lexeme done taken rest c l blocks tokens begins read size =>
    intro t ht
    rcases List.mem_append.mp ht with ht | ht
    · exact Nat.le_trans (recorded t ht) further
    · rw [List.mem_singleton.mp ht]
      exact further
  | _ => exact fun t ht => Nat.le_trans (recorded t ht) further

theorem Reaches.recorded {cs : List Char} {x : Scanner} (h : Reaches (begin cs) x) :
    x.Recorded := by
  induction h with
  | refl => exact fun t ht => nomatch ht
  | tail _ step ih => exact step.recorded ih

/-- What the run amounts to from the beginning of a line: the tokens found before it, and those of
the text behind it, which are the same on every line. -/
theorem remaining_lineBegins {done rest : List Char} {blocks : List Nat} {tokens : List Token}
    (begins : Layout.LineBegins done) :
    remaining ⟨done, rest, true, blocks, tokens⟩ =
      (movedDown (Position.start.after done).line
        (Layout.tokens (Position.after ⟨0, 1⟩ rest) blocks (ofLine 0 rest))).map (tokens ++ ·) := by
  have first := after_lineBegins begins
  generalize (Position.start.after done).line = n at first ⊢
  have place : Position.start.after done = Position.down n ⟨0, 1⟩ := by
    rw [first, Position.down, Nat.zero_add]
  have pieces : pieces ⟨done, rest, true, blocks, tokens⟩ = (ofLine 0 rest).map (Piece.down n) := by
    change ofLine (Position.start.after done).line rest = _
    rw [first, ← (down_readings n).all.1, Nat.zero_add]
  rw [remaining, pieces, position, place, Position.after_down, Layout.tokens_down]

theorem remaining_idle {done line rest : List Char} {blocks : List Nat} {tokens : List Token}
    (idle : Remark line) : remaining ⟨done, line ++ '\n' :: rest, true, blocks, tokens⟩ =
      remaining ⟨done ++ line ++ ['\n'], rest, true, blocks, tokens⟩ := by
  refine remaining_pass ?_ rfl rfl ?_
  · simp only [Scanner.position, ← Position.after_append, List.append_assoc,
      List.singleton_append]
  · change ofLine (Position.start.after done).line (line ++ '\n' :: rest) =
      ofLine (Position.start.after (done ++ line ++ ['\n'])).line rest
    rw [ofLine_remark idle, Layout.line_after_newline done (newline_not_mem_remark idle)]

end Scanner

open Scanner Piece

theorem movedDown_succ (n : Nat) (found : Except Fault (List Token)) :
    movedDown (n + 1) found = movedDown 1 (movedDown n found) := by
  cases found with
  | error fault => rfl
  | ok ts =>
    refine congrArg Except.ok ?_
    rw [List.map_map]
    rfl

theorem le_movedDown {n : Nat} {found : Except Fault (List Token)} :
    (∀ us, movedDown n found = .ok us → ∀ t ∈ us, n ≤ t.position.line) ∧
    ∀ fault, movedDown n found = .error fault → n ≤ fault.position.line := by
  cases found with
  | error fault =>
    refine ⟨nofun, ?_⟩
    rintro _ ⟨⟩
    exact Nat.le_add_left ..
  | ok ts =>
    refine ⟨?_, nofun⟩
    rintro _ ⟨⟩ t ht
    obtain ⟨u, -, rfl⟩ := List.mem_map.mp ht
    exact Nat.le_add_left ..

/-- The second reading is the first one with everything from a line on moved down by one: the tokens
of earlier lines are the same, and so is a fault, which lies behind them. -/
def MovedFrom (line : Nat) (found found' : Except Fault (List Token)) : Prop :=
  (∃ ts us, found = .ok (ts ++ us) ∧ found' = .ok (ts ++ us.map (Token.down 1)) ∧
    (∀ t ∈ ts, t.position.line < line) ∧ ∀ t ∈ us, line ≤ t.position.line) ∨
  ∃ fault, found = .error fault ∧ found' = .error (fault.down 1) ∧ line ≤ fault.position.line

/-- A line without content, put in where the scanner comes to the beginning of a line, moves what
stands behind it down by one line, with the marks at the end, and is not seen otherwise. -/
theorem tokenize_idle_line {before behind line : List Char} (starts : LineStarts before behind)
    (idle : Remark line) :
    MovedFrom (Position.start.after before).line (tokenize (String.ofList (before ++ behind)))
      (tokenize (String.ofList (before ++ line ++ '\n' :: behind))) := by
  obtain ⟨blocks, tokens, run⟩ := starts.reaches
  have whole : tokenize (String.ofList (before ++ behind)) =
      remaining ⟨before, behind, true, blocks, tokens⟩ :=
    Reaches.tokenize (by rw [String.toList_ofList]; exact run behind)
  have widened : tokenize (String.ofList (before ++ line ++ '\n' :: behind)) =
      remaining ⟨before, line ++ '\n' :: behind, true, blocks, tokens⟩ :=
    Reaches.tokenize (by rw [String.toList_ofList, List.append_assoc]; exact run _)
  rw [whole, widened, remaining_idle idle, remaining_lineBegins starts.1,
    remaining_lineBegins (Layout.lineBegins_newline _),
    Layout.line_after_newline before (newline_not_mem_remark idle), movedDown_succ]
  have low := @le_movedDown (Position.start.after before).line
    (Layout.tokens (Position.after ⟨0, 1⟩ behind) blocks (ofLine 0 behind))
  generalize movedDown _ (Layout.tokens _ blocks _) = found at low ⊢
  cases found with
  | error fault => exact .inr ⟨fault, rfl, rfl, low.2 fault rfl⟩
  | ok us => exact .inl ⟨tokens, us, rfl, rfl, (run behind).recorded, low.1 us rfl⟩

theorem tokenize_idle_line_comment :
    LineStarts ['x', '\n'] [' ', 'y'] ∧ Remark ['\t', '#', '\"'] ∧
      MovedFrom 2 (tokenize (String.ofList (['x', '\n'] ++ [' ', 'y'])))
        (tokenize (String.ofList (['x', '\n'] ++ ['\t', '#', '\"'] ++ '\n' :: [' ', 'y']))) := by
  have idle : Remark ['\t', '#', '\"'] := by
    refine @remark_comment ['\t'] ['\"'] ?_ (by decide)
    exact blanks_cons rfl blanks_nil
  exact ⟨lineStarts_second, idle, tokenize_idle_line lineStarts_second idle⟩

end Miaou
