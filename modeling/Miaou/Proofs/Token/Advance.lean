import Miaou.Proofs.Token.Scanner
import Miaou.Proofs.Token.Span

/-!
The scanner always advances. Inside a line it hands the text to a reader chosen by the next
character; a reader looks at the text by itself, and one that finds nothing to begin with would
leave everything as it was. That never happens: the chosen reader takes at least the character it
was chosen by. So every turn takes a character or finds the content of its line, the loop comes to
its end, and no more tokens with a text are found than there are characters.
-/

namespace Miaou

namespace Lexeme

theorem ofWord_identifier {word rest : List Char} (name : (ofWord word rest).kind = .identifier) :
    (ofWord word rest).payload = .str (String.ofList word) := by
  unfold ofWord at name ⊢
  split at name
  · rfl
  · cases name
  · cases fused : fused? word rest with
    | none => rfl
    | some l =>
      obtain ⟨keyword, same⟩ := fused?_kind fused
      rw [fused, Option.getD_some, same] at name
      cases name

theorem read_identifier {c : Char} {cs : List Char} {l : Lexeme} (h : read c cs = .ok l)
    (name : l.kind = .identifier) : startsWord c = true ∧
      l.payload = .str (String.ofList ((c :: cs).takeWhile continuesWord)) := by
  rcases read_cases h with ⟨-, h⟩ | ⟨-, h⟩ | ⟨starts, rfl⟩ | ⟨-, h⟩
  · unfold readString at h
    split at h <;> cases h
    cases name
  · unfold readNumber ofNumber at h
    split at h
    · cases h
      cases name
    · split at h <;> cases h
      cases name
  · exact ⟨starts, ofWord_identifier name⟩
  · obtain ⟨sign, -, rfl, -⟩ := readSymbol_split h
    cases name

end Lexeme

namespace Scanner

open Text Lexeme Piece

/-- What comes of a reader. -/
inductive Reading where
  | lexeme (l : Lexeme)
  | misread (e : Misreading)
  /-- There was no character to begin with; nothing is taken and nothing is told. -/
  | silent
  deriving DecidableEq, Repr

def Reading.ofExcept : Except Misreading Lexeme → Reading
  | .ok l => .lexeme l
  | .error e => .misread e

inductive Reader where
  | string | number | word | symbol
  deriving DecidableEq, Repr

namespace Reader

def ofChar (c : Char) : Reader :=
  if c = '"' || c = '\'' then .string
  else if c.isDigit then .number
  else if startsWord c then .word
  else .symbol

/-- What a reader makes of any text, whether it was chosen for it or not: no digits are no number,
and a word can be empty. -/
def read : Reader → List Char → Reading
  | .string, [] => .silent
  | .string, quote :: cs => .ofExcept (readString quote cs)
  | .number, cs =>
    if cs.takeWhile Char.isDigit = [] && fraction cs = [] then .misread ⟨.overflow, []⟩
    else .ofExcept (readNumber cs)
  | .word, cs => .lexeme (readWord cs)
  | .symbol, [] => .silent
  | .symbol, c :: cs => .ofExcept (readSymbol c cs)

theorem read_ofChar (c : Char) (cs : List Char) :
    (ofChar c).read (c :: cs) = .ofExcept (Lexeme.read c cs) := by
  rw [ofChar, Lexeme.read]
  split
  · rfl
  split
  · rename_i digit
    rw [read, if_neg (by simp [digit])]
  split
  · rfl
  · rfl

theorem read_eq_ok {c : Char} {cs : List Char} {l : Lexeme}
    (h : (ofChar c).read (c :: cs) = .lexeme l) : Lexeme.read c cs = .ok l := by
  rw [read_ofChar] at h
  cases read : Lexeme.read c cs with
  | error e =>
    rw [read] at h
    cases h
  | ok l' =>
    rw [read] at h
    cases h
    rfl

theorem startsWord_of_ofChar {c : Char} (h : ofChar c = .word) : startsWord c = true := by
  unfold ofChar at h
  split at h
  · cases h
  split at h
  · cases h
  split at h
  · assumption
  · cases h

end Reader

/-- What a reader does with the text it is chosen for: it is not silent, and a lexeme takes at least
a character; a word is not empty, and no name is. -/
structure Reader.Starts (r : Reader) (cs : List Char) : Prop where
  heard : r.read cs ≠ .silent
  taken : ∀ l, r.read cs = .lexeme l → 0 < l.size ∧ l.size ≤ cs.length
  word : r = .word → cs.takeWhile continuesWord ≠ []
  name : ∀ l, r.read cs = .lexeme l → l.kind = .identifier → l.payload ≠ .str ""

theorem Reader.starts_ofChar (c : Char) (cs : List Char) : (ofChar c).Starts (c :: cs) where
  heard := by
    rw [read_ofChar]
    cases Lexeme.read c cs <;> exact nofun
  taken l found := by
    have read := read_eq_ok found
    exact ⟨read_size_pos read, read_size_le read⟩
  word chosen := by
    have starts := startsWord_of_ofChar chosen
    rw [List.takeWhile_cons_of_pos (continuesWord_of_startsWord starts)]
    exact List.cons_ne_nil _ _
  name l found name empty := by
    obtain ⟨starts, payload⟩ := read_identifier (read_eq_ok found) name
    have none := congrArg String.toList (Payload.str.inj (payload.symm.trans empty))
    rw [String.toList_ofList, List.takeWhile_cons_of_pos (continuesWord_of_startsWord starts)]
      at none
    cases none

def dispatch (x : Scanner) : Turn :=
  match x.rest.head? with
  | none => .ends x.closed
  | some c =>
    if isInline c then .goes (x.pass 1)
    else if c = '#' then .goes (x.pass (x.rest.takeWhile (· ≠ '\n')).length)
    else if c = '\n' then
      .goes { x.pass 1 with fresh := true, tokens := x.tokens ++ [.newline x.position] }
    else
      match (Reader.ofChar c).read x.rest with
      | .silent => .goes x
      | .misread e => .fails ⟨e.cause, x.position, String.ofList e.text⟩
      | .lexeme l =>
        .goes { x.pass l.size with tokens := x.tokens ++ [⟨l.kind, l.payload, x.position⟩] }

def iteration (x : Scanner) : Turn := if x.fresh then x.enter else x.dispatch

def loop : Nat → Scanner → Option (Except Fault (List Token))
  | 0, _ => none
  | fuel + 1, x =>
    match x.iteration with
    | .goes y => loop fuel y
    | .ends ts => some (.ok ts)
    | .fails fault => some (.error fault)

theorem dispatch_eq_advance (x : Scanner) : x.dispatch = x.advance := by
  obtain ⟨done, rest, fresh, blocks, tokens⟩ := x
  cases rest with
  | nil => rfl
  | cons c cs =>
    rw [dispatch, advance]
    simp only [List.head?_cons]
    by_cases inline : isInline c = true
    · have other : c ≠ '\n' := by rintro rfl; exact absurd inline (by decide)
      rw [if_pos inline, if_neg other, if_pos inline]
    by_cases note : c = '#'
    · subst note
      rfl
    by_cases feed : c = '\n'
    · subst feed
      rfl
    rw [if_neg inline, if_neg note, if_neg feed, if_neg feed, if_neg inline, if_neg note,
      Reader.read_ofChar]
    cases Lexeme.read c cs <;> rfl

theorem iteration_eq_turn (x : Scanner) : x.iteration = x.turn := by
  rw [iteration, turn, dispatch_eq_advance]

/-- A turn takes a character, and at most one token for what it takes, or it finds the content that
a line begins with. -/
inductive Moves (x y : Scanner) : Prop where
  | takes {taken : List Char} (ne : taken ≠ []) (rest : x.rest = taken ++ y.rest)
      (done : y.done = x.done ++ taken)
      (tokens : y.tokens = x.tokens ∨
        ∃ t, y.tokens = x.tokens ++ [t] ∧ t.ownsText = true ∧ t.position = x.position)
  | enters {blanks more : List Char} {c : Char} {marks : List Token} (before : x.fresh = true)
      (behind : y.fresh = false) (rest : x.rest = blanks ++ y.rest)
      (done : y.done = x.done ++ blanks) (pending : y.rest = c :: more) (begins : Begins c)
      (tokens : y.tokens = x.tokens ++ marks) (layout : ∀ t ∈ marks, t.ownsText = false)

theorem Goes.moves {x y : Scanner} (h : Goes x y) : Moves x y := by
  cases h.takes with
  | idle blank => exact .takes (by simp) (by simp) rfl (.inl rfl)
  | remark blank line stop => exact .takes (by simp) rfl rfl (.inl rfl)
  | content blank begins fits =>
    have none := Span.filter_adjust fits
    rw [List.filter_eq_nil_iff] at none
    exact .enters rfl rfl rfl rfl rfl begins rfl fun t member => by simpa using none t member
  | newline => exact .takes (by simp) rfl rfl (.inr ⟨_, rfl, rfl, rfl⟩)
  | blank inline => exact .takes (by simp) rfl rfl (.inl rfl)
  | note line stop => exact .takes (by simp) rfl rfl (.inl rfl)
  | lexeme begins read size =>
    exact .takes (by simp) rfl rfl
      (.inr ⟨_, rfl, Span.ownsText_of_not_layout (read_isLayout read), rfl⟩)

/-- What is found with a text and what is left to be read, counted together. -/
def budget (x : Scanner) : Nat := x.tokens.countP Token.ownsText + x.rest.length

theorem Moves.budget_le {x y : Scanner} (h : Moves x y) : y.budget ≤ x.budget := by
  cases h with
  | @takes taken ne rest done tokens =>
    have taken_pos := List.length_pos_iff.mpr ne
    rw [budget, budget, rest, List.length_append]
    rcases tokens with same | ⟨t, more, owns, -⟩
    · rw [same]
      omega
    · rw [more, List.countP_append, List.countP_singleton, if_pos owns]
      omega
  | @enters blanks more c marks before behind rest done pending begins tokens layout =>
    have none : marks.countP Token.ownsText = 0 :=
      List.countP_eq_zero.mpr fun t member => by simp [layout t member]
    rw [budget, budget, tokens, rest, List.countP_append, none, List.length_append]
    omega

@[simp] theorem countP_closed (x : Scanner) :
    x.closed.countP Token.ownsText = x.tokens.countP Token.ownsText := by
  rw [closed, List.countP_append, List.countP_eq_length_filter, List.countP_eq_length_filter,
    Span.filter_finish, List.length_nil, Nat.add_zero]

theorem countP_ends {x : Scanner} {ts : List Token} (h : x.turn = .ends ts) :
    ts.countP Token.ownsText = x.tokens.countP Token.ownsText := by
  cases takes_iff.mpr h with
  | finish => exact countP_closed _
  | stop => exact countP_closed _

/-! The loop -/

/-- The loop comes to its end before the measure of what is left to do is used up. -/
theorem loop_eq_remaining {fuel : Nat} {x : Scanner} (enough : x.left < fuel) (placed : x.Placed) :
    loop fuel x = some x.remaining := by
  induction fuel generalizing x with
  | zero => cases enough
  | succ fuel ih =>
    rw [loop, iteration_eq_turn]
    cases turn : x.turn with
    | goes y =>
      have less := Goes.left_lt turn
      rw [Goes.remaining turn placed]
      exact ih (by omega) (Goes.placed turn)
    | ends ts => rw [remaining_ends turn]
    | fails fault => rw [remaining_fails turn placed]

theorem loop_countP_le {fuel : Nat} {x : Scanner} {ts : List Token}
    (h : loop fuel x = some (.ok ts)) : ts.countP Token.ownsText ≤ x.budget := by
  induction fuel generalizing x with
  | zero => cases h
  | succ fuel ih =>
    rw [loop, iteration_eq_turn] at h
    cases turn : x.turn with
    | goes y =>
      rw [turn] at h
      exact Nat.le_trans (ih h) (Goes.moves turn).budget_le
    | ends us =>
      rw [turn] at h
      cases h
      rw [countP_ends turn]
      exact Nat.le_add_right _ _
    | fails fault =>
      rw [turn] at h
      cases h

/-- In every state a turn takes a character or finds the content of its line, if it is not the last
one, and the reader that is chosen takes the character it was chosen by. So the loop ends with what
the script is read as, after at most two turns for each character and two more, and there are no
more tokens with a text than characters. -/
theorem tokenize_advances (source : String) :
    (∀ x y : Scanner, x.iteration = .goes y → Moves x y) ∧
      (∀ x : Scanner, x.fresh = false → ∀ c cs, x.rest = c :: cs → Begins c →
        (Reader.ofChar c).Starts x.rest) ∧
      (∀ fuel, 2 * source.length + 2 ≤ fuel →
        loop fuel (begin source.toList) = some (tokenize source)) ∧
      ∀ ts, tokenize source = .ok ts → ts.countP Token.ownsText ≤ source.length := by
  have ends : ∀ fuel, 2 * source.length + 2 ≤ fuel →
      loop fuel (begin source.toList) = some (tokenize source) := by
    intro fuel enough
    have left : (begin source.toList).left < fuel := by
      simp only [begin, left, Bool.toNat_true, String.length_toList]
      omega
    rw [loop_eq_remaining left (placed_begin _), remaining_begin]
    rfl
  refine ⟨fun x y goes => ?_, fun x _ c cs rest _ => ?_, ends, fun ts read => ?_⟩
  · rw [iteration_eq_turn] at goes
    exact Goes.moves goes
  · rw [rest]
    exact Reader.starts_ofChar c cs
  · have most := ends _ (Nat.le_refl _)
    rw [read] at most
    have bound := loop_countP_le most
    rwa [budget, begin, List.countP_nil, Nat.zero_add, String.length_toList] at bound

/-- A comment leaves the scanner at the beginning of a line, and the turn that finds the name behind
it takes no character. -/
theorem tokenize_advances_comment :
    let x : Scanner := ⟨['#', '\n'], ['x'], true, [], []⟩
    let y : Scanner := ⟨['#', '\n'], ['x'], false, [], []⟩
    Reaches (begin "#\nx".toList) x ∧ Moves x y ∧ (Reader.ofChar 'x').Starts ['x'] ∧
      loop 8 (begin "#\nx".toList) =
        some (.ok [⟨.identifier, .str "x", ⟨2, 1⟩⟩, .eof ⟨2, 2⟩]) := by
  intro x y
  obtain ⟨moves, starts, ends, -⟩ := tokenize_advances "#\nx"
  have comment : Goes (begin "#\nx".toList) ⟨['#'], ['\n', 'x'], true, [], []⟩ := by
    decide +kernel
  have feed : Goes ⟨['#'], ['\n', 'x'], true, [], []⟩ x := by decide +kernel
  have content : x.iteration = .goes y := by decide +kernel
  have read : tokenize "#\nx" = .ok [⟨.identifier, .str "x", ⟨2, 1⟩⟩, .eof ⟨2, 2⟩] := by
    decide +kernel
  refine ⟨.head comment (.single feed), moves x y content,
    starts y rfl 'x' [] rfl (by unfold Begins; decide), ?_⟩
  rw [ends 8 (by decide), read]

end Scanner

end Miaou
