import Mathlib.Data.List.Basic
import Mathlib.Logic.Relation
import Miaou.Proofs.Token.Ending
import Miaou.Proofs.Token.Nesting

/-!
The scanner as a machine. A turn of its loop looks at the text that is left: at the beginning of a
line it measures the indentation and passes over lines without content, inside a line it reads one
lexeme, one blank or one comment. `Takes` says once what a turn can do, and `remaining` is what the
rest of the run amounts to; a turn does not change it, so the whole run yields the tokens of the
script.
-/

namespace Miaou

/-- The scanner between two turns of its loop. -/
structure Scanner where
  done : List Char
  rest : List Char
  /-- No content has been met on the line. -/
  fresh : Bool
  /-- The widths of the open blocks, from the innermost. -/
  blocks : List Nat
  tokens : List Token
  deriving DecidableEq, Repr

namespace Scanner

open Text Lexeme Piece

inductive Turn where
  | goes (next : Scanner)
  | ends (tokens : List Token)
  | fails (fault : Fault)
  deriving DecidableEq, Repr

def begin (cs : List Char) : Scanner := ⟨[], cs, true, [], []⟩

def position (x : Scanner) : Position := Position.start.after x.done

def pass (x : Scanner) (size : Nat) : Scanner :=
  { x with done := x.done ++ x.rest.take size, rest := x.rest.drop size }

def closed (x : Scanner) : List Token :=
  x.tokens ++ (x.blocks.map (fun _ => .dedent 0 x.position) ++ [.eof x.position])

def settle (width : Nat) (x : Scanner) : Turn :=
  match x.rest with
  | [] => .ends x.closed
  | c :: cs =>
    if c = '\n' then .goes (x.pass 1)
    else if c = '#' then .goes (x.pass (comment cs).length.succ)
    else
      match Layout.adjust x.position.line width x.blocks with
      | none => .fails ⟨.badIndentation, x.position, ""⟩
      | some (marks, still) =>
        .goes { x with fresh := false, blocks := still, tokens := x.tokens ++ marks }

def enter (x : Scanner) : Turn :=
  let blanks := x.rest.takeWhile isInline
  (x.pass blanks.length).settle (indentation blanks)

def advance (x : Scanner) : Turn :=
  match x.rest with
  | [] => .ends x.closed
  | c :: cs =>
    if c = '\n' then
      .goes { x.pass 1 with fresh := true, tokens := x.tokens ++ [.newline x.position] }
    else if isInline c then .goes (x.pass 1)
    else if c = '#' then .goes (x.pass (comment cs).length.succ)
    else
      match Lexeme.read c cs with
      | .error e => .fails ⟨e.cause, x.position, String.ofList e.text⟩
      | .ok l =>
        .goes { x.pass l.size with tokens := x.tokens ++ [⟨l.kind, l.payload, x.position⟩] }

def turn (x : Scanner) : Turn := if x.fresh then x.enter else x.advance

/-- What a turn can do, with the text it passes over. -/
inductive Takes : Scanner → Turn → Prop where
  | idle {done blanks rest : List Char} {blocks : List Nat} {tokens : List Token}
      (blank : Blanks blanks) :
      Takes ⟨done, blanks ++ '\n' :: rest, true, blocks, tokens⟩
        (.goes ⟨done ++ (blanks ++ ['\n']), rest, true, blocks, tokens⟩)
  | remark {done blanks words rest : List Char} {blocks : List Nat} {tokens : List Token}
      (blank : Blanks blanks) (line : '\n' ∉ words) (stop : Stops (· ≠ '\n') rest) :
      Takes ⟨done, blanks ++ '#' :: words ++ rest, true, blocks, tokens⟩
        (.goes ⟨done ++ (blanks ++ '#' :: words), rest, true, blocks, tokens⟩)
  | content {done blanks rest : List Char} {c : Char} {blocks still : List Nat}
      {tokens marks : List Token} (blank : Blanks blanks) (begins : Begins c)
      (fits : Layout.adjust (Position.start.after (done ++ blanks)).line (indentation blanks)
        blocks = some (marks, still)) :
      Takes ⟨done, blanks ++ c :: rest, true, blocks, tokens⟩
        (.goes ⟨done ++ blanks, c :: rest, false, still, tokens ++ marks⟩)
  | misfit {done blanks rest : List Char} {c : Char} {blocks : List Nat} {tokens : List Token}
      (blank : Blanks blanks) (begins : Begins c)
      (fits : Layout.adjust (Position.start.after (done ++ blanks)).line (indentation blanks)
        blocks = none) :
      Takes ⟨done, blanks ++ c :: rest, true, blocks, tokens⟩
        (.fails ⟨.badIndentation, Position.start.after (done ++ blanks), ""⟩)
  | finish {done blanks : List Char} {blocks : List Nat} {tokens : List Token}
      (blank : Blanks blanks) :
      Takes ⟨done, blanks, true, blocks, tokens⟩
        (.ends (closed ⟨done ++ blanks, [], true, blocks, tokens⟩))
  | stop {done : List Char} {blocks : List Nat} {tokens : List Token} :
      Takes ⟨done, [], false, blocks, tokens⟩ (.ends (closed ⟨done, [], false, blocks, tokens⟩))
  | newline {done rest : List Char} {blocks : List Nat} {tokens : List Token} :
      Takes ⟨done, '\n' :: rest, false, blocks, tokens⟩
        (.goes ⟨done ++ ['\n'], rest, true, blocks,
          tokens ++ [.newline (Position.start.after done)]⟩)
  | blank {done rest : List Char} {c : Char} {blocks : List Nat} {tokens : List Token}
      (inline : isInline c = true) :
      Takes ⟨done, c :: rest, false, blocks, tokens⟩
        (.goes ⟨done ++ [c], rest, false, blocks, tokens⟩)
  | note {done words rest : List Char} {blocks : List Nat} {tokens : List Token}
      (line : '\n' ∉ words) (stop : Stops (· ≠ '\n') rest) :
      Takes ⟨done, '#' :: words ++ rest, false, blocks, tokens⟩
        (.goes ⟨done ++ '#' :: words, rest, false, blocks, tokens⟩)
  | lexeme {done taken rest : List Char} {c : Char} {l : Lexeme} {blocks : List Nat}
      {tokens : List Token} (begins : Begins c) (read : Lexeme.read c (taken ++ rest) = .ok l)
      (size : l.size = taken.length + 1) :
      Takes ⟨done, c :: taken ++ rest, false, blocks, tokens⟩
        (.goes ⟨done ++ c :: taken, rest, false, blocks,
          tokens ++ [⟨l.kind, l.payload, Position.start.after done⟩]⟩)
  | broken {done rest : List Char} {c : Char} {e : Misreading} {blocks : List Nat}
      {tokens : List Token} (begins : Begins c) (read : Lexeme.read c rest = .error e) :
      Takes ⟨done, c :: rest, false, blocks, tokens⟩
        (.fails ⟨e.cause, Position.start.after done, String.ofList e.text⟩)

theorem pass_append (done taken rest : List Char) (fresh : Bool) (blocks : List Nat)
    (tokens : List Token) :
    pass ⟨done, taken ++ rest, fresh, blocks, tokens⟩ taken.length =
      ⟨done ++ taken, rest, fresh, blocks, tokens⟩ := by
  simp [pass]

section Turns

variable {done words rest : List Char} {blocks : List Nat} {tokens : List Token}

theorem turn_fresh {blanks : List Char} (blank : Blanks blanks) (stop : Stops isInline rest) :
    turn ⟨done, blanks ++ rest, true, blocks, tokens⟩ =
      settle (indentation blanks) ⟨done ++ blanks, rest, true, blocks, tokens⟩ := by
  change enter _ = _
  simp only [enter, takeWhile_run blank stop, pass_append]

theorem turn_inside :
    turn ⟨done, rest, false, blocks, tokens⟩ = advance ⟨done, rest, false, blocks, tokens⟩ := rfl

theorem comment_append (line : '\n' ∉ words) (stop : Stops (· ≠ '\n') rest) :
    comment (words ++ rest) = words := takeWhile_run (inside_line line) stop

theorem pass_comment (line : '\n' ∉ words) (stop : Stops (· ≠ '\n') rest) (fresh : Bool) :
    pass ⟨done, '#' :: (words ++ rest), fresh, blocks, tokens⟩
        (comment (words ++ rest)).length.succ =
      ⟨done ++ '#' :: words, rest, fresh, blocks, tokens⟩ := by
  rw [comment_append line stop]
  exact pass_append done ('#' :: words) rest fresh blocks tokens

theorem turn_lexeme {c : Char} (begins : Begins c) :
    turn ⟨done, c :: rest, false, blocks, tokens⟩ =
      match Lexeme.read c rest with
      | .error e => .fails ⟨e.cause, Position.start.after done, String.ofList e.text⟩
      | .ok l =>
        .goes { pass ⟨done, c :: rest, false, blocks, tokens⟩ l.size with
          tokens := tokens ++ [⟨l.kind, l.payload, Position.start.after done⟩] } := by
  rw [turn_inside, advance]
  simp only [if_neg begins.2.1, begins.1, Bool.false_eq_true, if_false, if_neg begins.2.2, position]

end Turns

theorem Takes.turn {x : Scanner} {t : Turn} (h : Takes x t) : x.turn = t := by
  cases h with
  | @idle done blanks rest blocks tokens blank =>
    rw [turn_fresh blank (stops_cons.mpr (by decide)), ← List.append_assoc]
    rfl
  | @remark done blanks words rest blocks tokens blank line stop =>
    rw [List.append_assoc, List.cons_append, turn_fresh blank (stops_cons.mpr (by decide)),
      ← List.append_assoc, ← pass_comment line stop]
    rfl
  | content blank begins fits =>
    rw [turn_fresh blank (stops_cons.mpr begins.1), settle]
    simp only [position, if_neg begins.2.1, if_neg begins.2.2, fits]
  | misfit blank begins fits =>
    rw [turn_fresh blank (stops_cons.mpr begins.1), settle]
    simp only [position, if_neg begins.2.1, if_neg begins.2.2, fits]
  | @finish done blanks blocks tokens blank =>
    have whole := @turn_fresh done [] blocks tokens blanks blank (stops_nil isInline)
    rwa [List.append_nil] at whole
  | stop => rfl
  | newline => rfl
  | @blank done rest c blocks tokens inline =>
    have other : c ≠ '\n' := by rintro rfl; exact absurd inline (by decide)
    rw [turn_inside, advance]
    simp only [if_neg other, inline, if_true]
    rfl
  | note line stop =>
    rw [List.cons_append, turn_inside, ← pass_comment line stop]
    rfl
  | @lexeme done taken rest c l blocks tokens begins read size =>
    rw [List.cons_append, turn_lexeme begins, read]
    simp only [size]
    rw [← List.cons_append, ← List.length_cons (a := c), pass_append]
  | broken begins read =>
    rw [turn_lexeme begins, read]

theorem exists_takes (x : Scanner) : ∃ t, Takes x t := by
  obtain ⟨done, cs, fresh, blocks, tokens⟩ := x
  cases fresh with
  | true =>
    obtain ⟨blanks, rest, rfl, blank, stop⟩ := exists_run isInline cs
    cases rest with
    | nil => exact ⟨_, by rw [List.append_nil]; exact .finish blank⟩
    | cons c rest =>
      by_cases feed : c = '\n'
      · exact feed ▸ ⟨_, .idle blank⟩
      by_cases note : c = '#'
      · obtain ⟨words, rest, rfl, line, stop⟩ := exists_row rest
        rw [note, ← List.cons_append, ← List.append_assoc]
        exact ⟨_, .remark blank line stop⟩
      have begins : Begins c := ⟨stops_cons.mp stop, feed, note⟩
      cases fits : Layout.adjust (Position.start.after (done ++ blanks)).line
        (indentation blanks) blocks with
      | none => exact ⟨_, .misfit blank begins fits⟩
      | some found => exact ⟨_, .content blank begins fits⟩
  | false =>
    cases cs with
    | nil => exact ⟨_, .stop⟩
    | cons c cs =>
      by_cases feed : c = '\n'
      · exact feed ▸ ⟨_, .newline⟩
      by_cases inline : isInline c = true
      · exact ⟨_, .blank inline⟩
      by_cases note : c = '#'
      · obtain ⟨words, rest, rfl, line, stop⟩ := exists_row cs
        rw [note, ← List.cons_append]
        exact ⟨_, .note line stop⟩
      have begins : Begins c := ⟨by simpa using inline, feed, note⟩
      cases read : Lexeme.read c cs with
      | error e => exact ⟨_, .broken begins read⟩
      | ok l =>
        obtain ⟨n, size⟩ := Nat.exists_eq_succ_of_ne_zero (read_size_pos read).ne'
        have fits : n ≤ cs.length := by
          have most := read_size_le read
          rw [size] at most
          simpa using most
        rw [← List.take_append_drop n cs, ← List.cons_append]
        refine ⟨_, .lexeme begins ?_ (?_ : l.size = _)⟩
        · rwa [List.take_append_drop]
        · rw [size, List.length_take_of_le fits]

theorem takes_iff {x : Scanner} {t : Turn} : Takes x t ↔ x.turn = t := by
  refine ⟨Takes.turn, fun h => ?_⟩
  obtain ⟨u, takes⟩ := exists_takes x
  rwa [← h, takes.turn]

/-! Runs -/

def Goes (x y : Scanner) : Prop := x.turn = .goes y

instance (x y : Scanner) : Decidable (Goes x y) := inferInstanceAs (Decidable (_ = _))

def Reaches : Scanner → Scanner → Prop := Relation.ReflTransGen Goes

theorem Goes.takes {x y : Scanner} (h : Goes x y) : Takes x (.goes y) := takes_iff.mpr h

theorem Goes.text {x y : Scanner} (h : Goes x y) :
    ∃ taken, x.rest = taken ++ y.rest ∧ y.done = x.done ++ taken := by
  cases h.takes with
  | idle => exact ⟨_, by simp, rfl⟩
  | remark => exact ⟨_, rfl, rfl⟩
  | content => exact ⟨_, rfl, rfl⟩
  | newline => exact ⟨['\n'], rfl, rfl⟩
  | blank => exact ⟨[_], rfl, rfl⟩
  | note => exact ⟨_, rfl, rfl⟩
  | lexeme => exact ⟨_, rfl, rfl⟩

/-- What is left to do: the text, and the content to come on the line. -/
def left (x : Scanner) : Nat := 2 * x.rest.length + x.fresh.toNat

theorem Goes.left_lt {x y : Scanner} (h : Goes x y) : y.left < x.left := by
  cases h.takes <;> simp [left] <;> omega

theorem Goes.unique {x y z : Scanner} (h : Goes x y) (h' : Goes x z) : y = z :=
  Turn.goes.inj (h.symm.trans h')

theorem Reaches.text {x y : Scanner} (h : Reaches x y) :
    ∃ taken, x.rest = taken ++ y.rest ∧ y.done = x.done ++ taken := by
  induction h with
  | refl => exact ⟨[], by simp, by simp⟩
  | tail _ step ih =>
    obtain ⟨taken, rest, done⟩ := ih
    obtain ⟨more, rest', done'⟩ := step.text
    exact ⟨taken ++ more, by rw [rest, rest', List.append_assoc],
      by rw [done', done, List.append_assoc]⟩

theorem Reaches.whole {cs : List Char} {x : Scanner} (h : Reaches (begin cs) x) :
    x.done ++ x.rest = cs := by
  obtain ⟨taken, rest, done⟩ := h.text
  change cs = _ at rest
  rw [rest, done]
  rfl

theorem Reaches.left_le {x y : Scanner} (h : Reaches x y) : x = y ∨ y.left < x.left := by
  induction h with
  | refl => exact .inl rfl
  | tail _ step ih =>
    rcases ih with rfl | less
    · exact .inr step.left_lt
    · exact .inr (Nat.lt_trans step.left_lt less)

theorem Reaches.total {x y z : Scanner} (h : Reaches x y) (h' : Reaches x z) :
    Reaches y z ∨ Reaches z y :=
  Relation.ReflTransGen.total_of_right_unique (fun _ _ _ => Goes.unique) h h'

/-! What a run amounts to -/

def pieces (x : Scanner) : List Piece :=
  if x.fresh then ofLine x.position.line x.rest else ofContent x.position x.rest

/-- The tokens of the whole run, or its fault. -/
def remaining (x : Scanner) : Except Fault (List Token) :=
  (Layout.tokens (x.position.after x.rest) x.blocks x.pieces).map (x.tokens ++ ·)

theorem remaining_begin (cs : List Char) :
    (begin cs).remaining = Layout.tokens (Position.start.after cs) [] (ofScript cs) := by
  change (Layout.tokens (Position.start.after cs) [] (ofScript cs)).map ([] ++ ·) = _
  cases Layout.tokens (Position.start.after cs) [] (ofScript cs) <;> rfl

theorem remaining_pass {x y : Scanner} (finish : x.position.after x.rest = y.position.after y.rest)
    (blocks : x.blocks = y.blocks) (tokens : x.tokens = y.tokens) (pieces : x.pieces = y.pieces) :
    x.remaining = y.remaining := by
  rw [remaining, remaining, finish, blocks, tokens, pieces]

theorem remaining_token {x y : Scanner} {t : Token}
    (finish : x.position.after x.rest = y.position.after y.rest) (blocks : x.blocks = y.blocks)
    (tokens : y.tokens = x.tokens ++ [t]) (pieces : x.pieces = .token t :: y.pieces) :
    x.remaining = y.remaining := by
  rw [remaining, remaining, finish, blocks, tokens, pieces, Layout.tokens]
  cases Layout.tokens (y.position.after y.rest) y.blocks y.pieces with
  | error fault => rfl
  | ok ts => exact congrArg Except.ok (List.append_cons ..)

theorem remaining_content {x y : Scanner} {width : Nat} {first : Position} {marks : List Token}
    (finish : x.position.after x.rest = y.position.after y.rest)
    (fits : Layout.adjust first.line width x.blocks = some (marks, y.blocks))
    (tokens : y.tokens = x.tokens ++ marks) (pieces : x.pieces = .content width first :: y.pieces) :
    x.remaining = y.remaining := by
  rw [remaining, remaining, finish, tokens, pieces, Layout.tokens, fits]
  cases h : Layout.tokens (y.position.after y.rest) y.blocks y.pieces with
  | error fault => simp only [h]; rfl
  | ok ts => simp [h, Except.map]

theorem Goes.finish {x y : Scanner} (h : Goes x y) :
    x.position.after x.rest = y.position.after y.rest := by
  obtain ⟨taken, rest, done⟩ := h.text
  simp [position, position, rest, done]

theorem ofLine_comment (line : Nat) {cs rest : List Char} (idle : Remark cs)
    (stop : Stops (· ≠ '\n') rest) : ofLine line (cs ++ rest) = ofLine line rest := by
  cases rest with
  | nil => rw [List.append_nil, ofLine_remark_end idle, ofLine_remark_end remark_nil]
  | cons c rest =>
    have feed : c = '\n' := by simpa using stops_cons.mp stop
    rw [feed, ofLine_remark idle, ← List.nil_append ('\n' :: rest), ofLine_remark remark_nil]

/-- As long as no content is met the scanner stands at the beginning of a line, or at its end
behind a comment. -/
def Placed (x : Scanner) : Prop :=
  x.fresh = true → Layout.LineBegins x.done ∨ Stops (· ≠ '\n') x.rest

theorem placed_begin (cs : List Char) : (begin cs).Placed := fun _ => .inl (.inl rfl)

theorem Goes.placed {x y : Scanner} (h : Goes x y) : y.Placed := by
  cases h.takes with
  | @idle done blanks =>
    exact fun _ => .inl (List.append_assoc done blanks _ ▸ Layout.lineBegins_newline _)
  | remark blank line stop => exact fun _ => .inr stop
  | newline => exact fun _ => .inl (Layout.lineBegins_newline _)
  | _ => exact nofun

theorem Reaches.placed {cs : List Char} {x : Scanner} (h : Reaches (begin cs) x) : x.Placed := by
  induction h with
  | refl => exact placed_begin cs
  | tail _ step _ => exact step.placed

theorem after_lineBegins {done : List Char} (h : Layout.LineBegins done) :
    Position.start.after done = ⟨(Position.start.after done).line, 1⟩ := by
  rcases h with rfl | ended
  · rfl
  · obtain ⟨cs, rfl⟩ := List.getLast?_eq_some_iff.mp ended
    rw [Position.after_newline]

section Content

variable {done blanks rest : List Char} {c : Char} {blocks : List Nat} {tokens : List Token}

theorem lineBegins_of_content
    (placed : Placed ⟨done, blanks ++ c :: rest, true, blocks, tokens⟩)
    (blank : Blanks blanks) (begins : Begins c) : Layout.LineBegins done := by
  refine (placed rfl).resolve_right fun stop => ?_
  cases blanks with
  | nil =>
    have feed : c = '\n' := by simpa using stops_cons.mp stop
    exact begins.2.1 feed
  | cons d ds =>
    have feed : d = '\n' := by simpa using stops_cons.mp stop
    exact newline_not_mem_blanks blank (feed ▸ List.mem_cons_self)

theorem pieces_content (placed : Placed ⟨done, blanks ++ c :: rest, true, blocks, tokens⟩)
    (blank : Blanks blanks) (begins : Begins c) :
    pieces ⟨done, blanks ++ c :: rest, true, blocks, tokens⟩ =
      .content (indentation blanks) (Position.start.after (done ++ blanks)) ::
        ofContent (Position.start.after (done ++ blanks)) (c :: rest) := by
  have first := after_lineBegins (lineBegins_of_content placed blank begins)
  have read := ofLine_blanks (Position.start.after done).line blank begins rest
  rwa [← first, ← Position.after_append] at read

end Content

theorem Goes.remaining {x y : Scanner} (h : Goes x y) (placed : x.Placed) :
    x.remaining = y.remaining := by
  have finish := h.finish
  cases h.takes with
  | @idle done blanks rest blocks tokens blank =>
    refine remaining_pass finish rfl rfl ?_
    change ofLine (Position.start.after done).line (blanks ++ '\n' :: rest) =
      ofLine (Position.start.after (done ++ (blanks ++ ['\n']))).line rest
    rw [ofLine_remark (remark_of_blanks blank), ← List.append_assoc,
      Layout.line_after_newline done (newline_not_mem_blanks blank)]
  | @remark done blanks words rest blocks tokens blank line stop =>
    refine remaining_pass finish rfl rfl ?_
    have idle := remark_comment blank line
    change ofLine (Position.start.after done).line (blanks ++ '#' :: words ++ rest) =
      ofLine (Position.start.after (done ++ (blanks ++ '#' :: words))).line rest
    rw [ofLine_comment _ idle stop, Layout.line_after_line done (newline_not_mem_remark idle)]
  | @content done blanks rest c blocks still tokens marks blank begins fits =>
    exact remaining_content finish fits rfl (pieces_content placed blank begins)
  | @newline done rest blocks tokens =>
    refine remaining_token finish rfl rfl ?_
    change ofContent (Position.start.after done) ('\n' :: rest) = .token _ ::
      ofLine (Position.start.after (done ++ ['\n'])).line rest
    rw [ofContent_newline, Position.after_newline]
  | @blank done rest c blocks tokens inline =>
    refine remaining_pass finish rfl rfl ?_
    change ofContent (Position.start.after done) (c :: rest) =
      ofContent (Position.start.after (done ++ [c])) rest
    rw [ofContent_blank _ inline, Position.after_append]
    rfl
  | @note done words rest blocks tokens line stop =>
    refine remaining_pass finish rfl rfl ?_
    change ofContent (Position.start.after done) ('#' :: words ++ rest) =
      ofContent (Position.start.after (done ++ '#' :: words)) rest
    rw [ofContent_note _ line stop, Position.after_append]
  | @lexeme done taken rest c l blocks tokens begins read size =>
    refine remaining_token finish rfl rfl ?_
    change ofContent (Position.start.after done) (c :: taken ++ rest) = .token _ ::
      ofContent (Position.start.after (done ++ c :: taken)) rest
    rw [List.cons_append, ofContent_token _ begins read, size, ← List.cons_append,
      ← List.length_cons (a := c), List.take_left, List.drop_left, Position.after_append]

theorem remaining_ends {x : Scanner} {ts : List Token} (h : x.turn = .ends ts) :
    x.remaining = .ok ts := by
  cases takes_iff.mpr h with
  | @finish done blanks blocks tokens blank =>
    have none : pieces ⟨done, blanks, true, blocks, tokens⟩ = [] :=
      ofLine_remark_end (remark_of_blanks blank)
    rw [remaining, none, closed, position, position, ← Position.after_append]
    rfl
  | @stop done blocks tokens =>
    have none : pieces ⟨done, [], false, blocks, tokens⟩ = [] := ofContent_nil _
    rw [remaining, none]
    rfl

theorem remaining_fails {x : Scanner} {fault : Fault} (h : x.turn = .fails fault)
    (placed : x.Placed) : x.remaining = .error fault := by
  cases takes_iff.mpr h with
  | @misfit done blanks rest c blocks tokens blank begins fits =>
    rw [remaining, pieces_content placed blank begins, Layout.tokens]
    simp only [fits]
    rfl
  | @broken done rest c e blocks tokens begins read =>
    have here : pieces ⟨done, c :: rest, false, blocks, tokens⟩ = _ :=
      ofContent_broken (Position.start.after done) begins read
    rw [remaining, here]
    rfl

theorem Reaches.tokenize {source : String} {x : Scanner}
    (h : Reaches (begin source.toList) x) : tokenize source = x.remaining := by
  induction h with
  | refl => exact (remaining_begin source.toList).symm
  | tail before step ih => exact ih.trans (step.remaining (Reaches.placed before))

theorem Reaches.tokens_kept {source : String} {x : Scanner}
    (h : Reaches (begin source.toList) x) {ts : List Token}
    (read : Miaou.tokenize source = .ok ts) : x.tokens <+: ts := by
  rw [h.tokenize, Scanner.remaining] at read
  cases found : Layout.tokens (x.position.after x.rest) x.blocks x.pieces with
  | error fault => rw [found] at read; cases read
  | ok us =>
    rw [found] at read
    cases read
    exact List.prefix_append _ _

theorem exists_last (x : Scanner) : ∃ y, Reaches x y ∧ ∀ z, y.turn ≠ .goes z := by
  by_cases further : ∃ y, Goes x y
  · obtain ⟨y, step⟩ := further
    have less := step.left_lt
    obtain ⟨z, run, last⟩ := exists_last y
    exact ⟨z, .head step run, last⟩
  · exact ⟨x, .refl, fun y step => further ⟨y, step⟩⟩
termination_by x.left

theorem fault_position {x : Scanner} {fault : Fault} (h : x.turn = .fails fault) :
    ∃ part rest, x.rest = part ++ rest ∧
      fault.position = Position.start.after (x.done ++ part) := by
  cases takes_iff.mpr h with
  | misfit => exact ⟨_, _, rfl, rfl⟩
  | broken => exact ⟨[], _, rfl, by rw [List.append_nil]⟩

theorem Reaches.fault_behind {source : String} {x : Scanner}
    (h : Reaches (begin source.toList) x) {fault : Fault}
    (refused : Miaou.tokenize source = .error fault) :
    x.done.length ≤ fault.position.offset source.toList := by
  obtain ⟨y, run, last⟩ := exists_last x
  obtain ⟨taken, -, done⟩ := run.text
  have reached : Reaches (begin source.toList) y := h.trans run
  rw [reached.tokenize] at refused
  cases turn : y.turn with
  | goes z => exact absurd turn (last z)
  | ends ts =>
    rw [remaining_ends turn] at refused
    cases refused
  | fails found =>
    rw [remaining_fails turn reached.placed] at refused
    cases refused
    obtain ⟨part, rest, left, here⟩ := fault_position turn
    have whole : source.toList = (y.done ++ part) ++ rest := by
      rw [List.append_assoc, ← left, reached.whole]
    rw [here, whole, Position.offset_after, done]
    simp only [List.length_append]
    omega

/-! The way to the beginning of a line -/

/-- The scanner of `before ++ behind` comes to the beginning of a line, having read `before`. -/
def LineStarts (before behind : List Char) : Prop :=
  Layout.LineBegins before ∧
    ∃ blocks tokens, Reaches (begin (before ++ behind)) ⟨before, behind, true, blocks, tokens⟩

/-- What stands behind the beginning of a line is not looked at on the way there. -/
theorem Goes.ahead {x y : Scanner} {m behind : List Char} (h : Goes x y)
    (rest : y.rest = m ++ behind) (last : m = [] → y.fresh = true ∧ Layout.LineBegins y.done)
    (feed : m ≠ [] → m.getLast? = some '\n') (other : List Char) :
    ∃ m', x.rest = m' ++ behind ∧
      Goes { x with rest := m' ++ other } { y with rest := m ++ other } := by
  have stops {cs : List Char} (open' : m ≠ []) (stop : Stops (· ≠ '\n') (m ++ cs)) :
      Stops (· ≠ '\n') (m ++ other) := stops_append (stops_of_append stop) open'
  cases h.takes with
  | @idle done blanks cs blocks tokens blank =>
    obtain rfl : cs = m ++ behind := rest
    have step := @Takes.idle done blanks (m ++ other) blocks tokens blank
    exact ⟨blanks ++ '\n' :: m, by simp, Takes.turn (by simpa using step)⟩
  | @remark done blanks words cs blocks tokens blank line stop =>
    obtain rfl : cs = m ++ behind := rest
    have idle := newline_not_mem_remark (remark_comment blank line)
    have open' : m ≠ [] := by
      intro none
      rcases (last none).2 with empty | ended
      · simp at empty
      · rw [List.getLast?_append, List.getLast?_eq_some_getLast (by simp), Option.some_or,
          Option.some_inj] at ended
        exact idle (ended ▸ List.getLast_mem _)
    have step := @Takes.remark done blanks words (m ++ other) blocks tokens blank line
      (stops open' stop)
    exact ⟨blanks ++ '#' :: words ++ m, by simp, Takes.turn (by simpa using step)⟩
  | @content done blanks cs c blocks still tokens marks blank begins fits =>
    have open' : m ≠ [] := fun none => nomatch (last none).1
    obtain ⟨ds, rfl⟩ : ∃ ds, m = c :: ds := by
      cases m with
      | nil => exact absurd rfl open'
      | cons d ds => exact ⟨ds, by cases rest; rfl⟩
    obtain rfl : cs = ds ++ behind := by simpa using rest
    have step := @Takes.content done blanks (ds ++ other) c blocks still tokens marks blank begins
      fits
    exact ⟨blanks ++ c :: ds, by simp, Takes.turn (by simpa using step)⟩
  | @newline done cs blocks tokens =>
    obtain rfl : cs = m ++ behind := rest
    exact ⟨'\n' :: m, rfl, Takes.turn .newline⟩
  | @blank done cs c blocks tokens inline =>
    obtain rfl : cs = m ++ behind := rest
    exact ⟨c :: m, rfl, Takes.turn (.blank inline)⟩
  | @note done words cs blocks tokens line stop =>
    obtain rfl : cs = m ++ behind := rest
    have open' : m ≠ [] := fun none => nomatch (last none).1
    have step := @Takes.note done words (m ++ other) blocks tokens line (stops open' stop)
    exact ⟨'#' :: words ++ m, by simp, Takes.turn (by simpa using step)⟩
  | @lexeme done taken cs c l blocks tokens begins read size =>
    obtain rfl : cs = m ++ behind := rest
    have open' : m ≠ [] := fun none => nomatch (last none).1
    obtain ⟨row, rfl⟩ := List.getLast?_eq_some_iff.mp (feed open')
    have same : SameLine (row ++ ['\n'] ++ behind) (row ++ ['\n'] ++ other) :=
      .inr ⟨row, behind, other, by simp, by simp⟩
    have step := @Takes.lexeme done taken (row ++ ['\n'] ++ other) c l blocks tokens begins
      (read_ahead read size same) size
    exact ⟨c :: taken ++ (row ++ ['\n']), by simp, Takes.turn (by simpa using step)⟩

theorem LineStarts.reaches {before behind : List Char} (h : LineStarts before behind) :
    ∃ blocks tokens, ∀ other,
      Reaches (begin (before ++ other)) ⟨before, other, true, blocks, tokens⟩ := by
  obtain ⟨begins, blocks, tokens, run⟩ := h
  refine ⟨blocks, tokens, fun other => ?_⟩
  suffices found : ∀ x, Reaches x ⟨before, behind, true, blocks, tokens⟩ →
      ∃ m, x.rest = m ++ behind ∧
        Reaches { x with rest := m ++ other } ⟨before, other, true, blocks, tokens⟩ by
    obtain ⟨m, rest, run'⟩ := found _ run
    obtain rfl : before = m := List.append_cancel_right rest
    exact run'
  intro x run
  induction run using Relation.ReflTransGen.head_induction_on with
  | refl => exact ⟨[], rfl, .refl⟩
  | @head x y step later ih =>
    obtain ⟨m, rest, run'⟩ := ih
    obtain ⟨taken, passed, done⟩ := Reaches.text later
    obtain rfl : m = taken := List.append_cancel_right (rest.symm.trans passed)
    change before = y.done ++ m at done
    have last : m = [] → y.fresh = true ∧ Layout.LineBegins y.done := by
      rintro rfl
      rcases Reaches.left_le later with rfl | less
      · exact ⟨rfl, begins⟩
      · have most := Bool.toNat_le y.fresh
        simp only [left, rest, List.nil_append, Bool.toNat_true] at less
        omega
    have feed : m ≠ [] → m.getLast? = some '\n' := by
      intro open'
      rcases begins with rfl | ended
      · exact absurd (List.append_eq_nil_iff.mp done.symm).2 open'
      · rwa [done, List.getLast?_append_of_ne_nil _ open'] at ended
    obtain ⟨m', rest', step'⟩ := step.ahead rest last feed other
    exact ⟨m', rest', .head step' run'⟩

theorem lineStarts_second : LineStarts ['x', '\n'] [' ', 'y'] := by
  have content : Goes (begin ['x', '\n', ' ', 'y']) ⟨[], ['x', '\n', ' ', 'y'], false, [], []⟩ := by
    decide +kernel
  have name : Goes ⟨[], ['x', '\n', ' ', 'y'], false, [], []⟩
      ⟨['x'], ['\n', ' ', 'y'], false, [], [⟨.identifier, .str "x", ⟨1, 1⟩⟩]⟩ := by
    decide +kernel
  exact ⟨.inr rfl, _, _, .head content (.head name (.single rfl))⟩

end Scanner

end Miaou
