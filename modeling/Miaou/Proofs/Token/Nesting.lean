import Miaou.Proofs.Token.Found
import Miaou.Proofs.Token.Layout

/-!
Layout tokens are well formed. Replaying them, an opening mark pushes its width and a closing mark
pops one, over the margin of width zero. `Laid` says token by token what may come next, so what
holds at every token is read off where a script is cut in two.
-/

namespace Miaou

/-- The widths open behind some tokens, from the innermost. -/
def replay : List Int → List Token → List Int
  | stack, [] => stack
  | stack, t :: ts =>
    match t.kind, t.payload with
    | .layout .indent, .int width => replay (width :: stack) ts
    | .layout .dedent, _ => replay stack.tail ts
    | _, _ => replay stack ts

def marks (mark : Layout) (ts : List Token) : Nat := ts.countP (·.kind = .layout mark)

/-- What holds of the layout tokens of every script. -/
structure LaidOut (ts : List Token) : Prop where
  /-- The end comes once and last. -/
  ending : ∃ body p, ts = body ++ [.eof p] ∧ ∀ t ∈ body, t.kind ≠ .layout .eof
  /-- No more blocks are closed than have been opened, and in the end all are closed. -/
  nested : (∀ before behind, ts = before ++ behind →
    marks .dedent before ≤ marks .indent before) ∧ marks .dedent ts = marks .indent ts
  /-- A block opens at the beginning of a line, wider than the one around it, and its first line
  has a text token. -/
  opening : ∀ before t behind, ts = before ++ t :: behind → t.kind = .layout .indent →
    (∃ width top, t.payload = .int width ∧ (replay [0] before).head? = some top ∧ top < width) ∧
      (∀ l ∈ before.getLast?, l.kind = .layout .newline) ∧
      ∃ u ∈ behind.head?, u.kind.isLayout = false
  /-- Blocks are closed down to the width their closing marks name. -/
  closing : ∀ before run behind, ts = before ++ run ++ behind →
    (∀ t ∈ run, t.kind = .layout .dedent) → (∀ t ∈ behind.head?, t.kind ≠ .layout .dedent) →
    ∀ t ∈ run, ∃ width, t.payload = .int width ∧
      (replay [0] (before ++ run)).head? = some width
  /-- No block is closed right after it opens. -/
  inhabited : ∀ before t behind, ts = before ++ t :: behind → t.kind = .layout .dedent →
    ∀ l ∈ before.getLast?, l.kind ≠ .layout .indent
  /-- A line ends behind a text token, so not at the beginning and not behind a line end. -/
  lines : ∀ before t behind, ts = before ++ t :: behind → t.kind = .layout .newline →
    ∃ l ∈ before.getLast?, l.kind.isLayout = false

namespace Layout

open Piece

/-- Closing marks that follow one another name one width, and behind the last one it is open. -/
def Agrees (width : Int) (stack : List Int) (ts : List Token) : Prop :=
  ∀ t ∈ ts.head?, if t.kind = .layout .dedent then t.payload = .int width
    else stack.head? = some width

/-- The tokens `ts` behind a token of the kind `last`, while the widths of `stack` are open. -/
inductive Laid : (last : Option Kind) → (stack : List Int) → (ts : List Token) → Prop where
  | eof {last : Option Kind} (p : Position) : Laid last [0] [.eof p]
  | newline {last : Kind} {stack : List Int} {ts : List Token} (p : Position)
      (text : last.isLayout = false) (more : Laid (some (.layout .newline)) stack ts) :
      Laid (some last) stack (.newline p :: ts)
  | indent {last : Option Kind} {top : Int} {stack : List Int} {ts : List Token} {width : Nat}
      (line : Nat) (begins : ∀ k ∈ last, k = .layout .newline) (wider : top < width)
      (text : ∃ t ∈ ts.head?, t.kind.isLayout = false)
      (more : Laid (some (.layout .indent)) (width :: top :: stack) ts) :
      Laid last (top :: stack) (.indent width line :: ts)
  | dedent {last : Option Kind} {top : Int} {stack : List Int} {ts : List Token} {width : Nat}
      (p : Position) (inside : last ≠ some (.layout .indent)) (agrees : Agrees width stack ts)
      (more : Laid (some (.layout .dedent)) stack ts) :
      Laid last (top :: stack) (.dedent width p :: ts)
  | text {last : Option Kind} {stack : List Int} {t : Token} {ts : List Token}
      (text : t.kind.isLayout = false) (more : Laid (some t.kind) stack ts) :
      Laid last stack (t :: ts)

theorem replay_text {t : Token} (h : t.kind.isLayout = false) (stack : List Int)
    (ts : List Token) : replay stack (t :: ts) = replay stack ts := by
  rw [replay]
  split
  · rename_i same _
    rw [same] at h
    nomatch h
  · rename_i same
    rw [same] at h
    nomatch h
  · rfl

@[simp] theorem replay_append (stack : List Int) (ts us : List Token) :
    replay stack (ts ++ us) = replay (replay stack ts) us := by
  induction ts generalizing stack with
  | nil => rfl
  | cons t ts ih =>
    simp only [List.cons_append, replay]
    split <;> exact ih _

theorem marks_text {t : Token} (h : t.kind.isLayout = false) (mark : Miaou.Layout)
    (ts : List Token) : marks mark (t :: ts) = marks mark ts := by
  refine List.countP_cons_of_neg ?_
  intro same
  rw [of_decide_eq_true same] at h
  nomatch h

def lastKind (last : Option Kind) (before : List Token) : Option Kind :=
  (before.getLast?.map Token.kind).or last

@[simp] theorem lastKind_cons (last : Option Kind) (t : Token) (ts : List Token) :
    lastKind last (t :: ts) = lastKind (some t.kind) ts := by
  cases ts with
  | nil => rfl
  | cons u us =>
    have found := List.getLast?_eq_some_getLast (List.cons_ne_nil u us)
    simp [lastKind, List.getLast?_cons_cons, found]

theorem laid_split {last : Option Kind} {stack : List Int} {before behind : List Token}
    (h : Laid last stack (before ++ behind)) (ne : behind ≠ []) :
    Laid (lastKind last before) (replay stack before) behind := by
  induction before generalizing last stack with
  | nil => simpa [lastKind, replay] using h
  | cons t ts ih =>
    rw [lastKind_cons]
    generalize same : t :: ts ++ behind = whole at h
    cases h with
    | eof p =>
      rw [List.cons_append, List.cons.injEq, List.append_eq_nil_iff] at same
      exact absurd same.2.2 ne
    | newline p text more =>
      cases same
      exact ih more
    | indent line begins wider text more =>
      cases same
      exact ih more
    | dedent p inside agrees more =>
      cases same
      exact ih more
    | text text more =>
      cases same
      rw [replay_text text]
      exact ih more

theorem laid_stack_ne {last : Option Kind} {stack : List Int} {ts : List Token}
    (h : Laid last stack ts) : stack ≠ [] := by
  induction h with
  | newline p text more ih => exact ih
  | text text more ih => exact ih
  | _ => exact List.cons_ne_nil _ _

theorem laid_marks {last : Option Kind} {stack : List Int} {before behind : List Token}
    (h : Laid last stack (before ++ behind)) (ne : behind ≠ []) :
    (replay stack before).length + marks .dedent before =
      stack.length + marks .indent before := by
  induction before generalizing last stack with
  | nil => rfl
  | cons t ts ih =>
    generalize same : t :: ts ++ behind = whole at h
    cases h with
    | eof p =>
      rw [List.cons_append, List.cons.injEq, List.append_eq_nil_iff] at same
      exact absurd same.2.2 ne
    | newline p text more =>
      cases same
      exact ih more
    | @indent _ top stack _ width line begins wider text more =>
      cases same
      have count := ih more
      have opened : marks .indent (.indent width line :: ts) = marks .indent ts + 1 :=
        List.countP_cons_of_pos rfl
      have same : marks .dedent (.indent width line :: ts) = marks .dedent ts :=
        List.countP_cons_of_neg Bool.false_ne_true
      rw [opened, same]
      change (replay (width :: top :: stack) ts).length + _ = _
      simp only [List.length_cons] at count ⊢
      omega
    | @dedent _ top stack _ width p inside agrees more =>
      cases same
      have count := ih more
      have closed : marks .dedent (.dedent width p :: ts) = marks .dedent ts + 1 :=
        List.countP_cons_of_pos rfl
      have same : marks .indent (.dedent width p :: ts) = marks .indent ts :=
        List.countP_cons_of_neg Bool.false_ne_true
      rw [closed, same]
      change (replay stack ts).length + _ = _
      simp only [List.length_cons]
      omega
    | text text more =>
      cases same
      rw [replay_text text, marks_text text, marks_text text]
      exact ih more

theorem laid_run {last : Option Kind} {stack : List Int} {run behind : List Token}
    (h : Laid last stack (run ++ behind)) (closing : ∀ t ∈ run, t.kind = .layout .dedent)
    (stop : ∀ t ∈ behind.head?, t.kind ≠ .layout .dedent) :
    ∀ t ∈ run, ∃ width, t.payload = .int width ∧ (replay stack run).head? = some width := by
  induction run generalizing last stack with
  | nil =>
    intro t ht
    cases ht
  | cons t run ih =>
    have mark := closing t List.mem_cons_self
    generalize same : t :: run ++ behind = whole at h
    cases h with
    | eof p =>
      cases (List.cons.inj same).1
      nomatch mark
    | newline p text more =>
      cases (List.cons.inj same).1
      nomatch mark
    | indent line begins wider text more =>
      cases (List.cons.inj same).1
      nomatch mark
    | text text more =>
      cases (List.cons.inj same).1
      rw [mark] at text
      nomatch text
    | @dedent _ top stack _ width p inside agrees more =>
      cases same
      have rest := ih more fun u hu => closing u (List.mem_cons_of_mem _ hu)
      have reached : (replay stack run).head? = some (width : Int) := by
        cases run with
        | nil =>
          cases behind with
          | nil => nomatch more
          | cons u us =>
            have open' := agrees u rfl
            rwa [if_neg (stop u rfl)] at open'
        | cons r run =>
          have named := agrees r rfl
          rw [if_pos (closing r (by simp))] at named
          obtain ⟨w, payload, head⟩ := rest r List.mem_cons_self
          cases named.symm.trans payload
          exact head
      intro u hu
      rcases List.mem_cons.mp hu with rfl | hu
      · exact ⟨width, rfl, reached⟩
      · exact rest u hu

def widths (blocks : List Nat) : List Int := (blocks ++ [0]).map Int.ofNat

theorem head?_widths (blocks : List Nat) :
    (widths blocks).head? = some (blocks.headD 0 : Int) := by
  cases blocks <;> rfl

theorem laid_close {width : Nat} (p : Position) (closed : List Nat) {still : List Nat}
    {ts : List Token} (met : still.headD 0 = width)
    (stop : ∀ t ∈ ts.head?, t.kind ≠ .layout .dedent)
    (more : ∀ last, Laid last (widths still) ts) {last : Option Kind}
    (inside : last ≠ some (.layout .indent)) :
    Laid last (widths (closed ++ still)) (closed.map (fun _ => .dedent width p) ++ ts) := by
  induction closed generalizing last with
  | nil => exact more last
  | cons w closed ih =>
    refine .dedent p inside ?_ (ih (by simp))
    intro t ht
    cases closed with
    | nil =>
      rw [if_neg (stop t ht), ← met]
      exact head?_widths still
    | cons v closed =>
      cases ht
      rfl

theorem laid_finish (finish : Position) (blocks : List Nat) {last : Option Kind}
    (inside : last ≠ some (.layout .indent)) :
    Laid last (widths blocks) (blocks.map (fun _ => .dedent 0 finish) ++ [.eof finish]) := by
  have close := @laid_close 0 finish blocks [] [.eof finish] rfl (by simp [Token.eof])
    (fun last => .eof finish) last inside
  rwa [List.append_nil] at close

theorem laid_content {line width : Nat} {blocks still : List Nat} {marks ts : List Token}
    (met : adjust line width blocks = some (marks, still))
    (text : ∃ t ∈ ts.head?, t.kind.isLayout = false)
    (more : ∀ last, Laid last (widths still) ts) {last : Option Kind}
    (begins : ∀ k ∈ last, k = .layout .newline) :
    Laid last (widths blocks) (marks ++ ts) := by
  rcases adjust_cases met with ⟨wider, rfl, rfl⟩ | ⟨closed, rfl, -, open', rfl⟩
  · cases blocks with
    | nil => exact .indent line begins (Int.ofNat_lt.mpr wider) text (more _)
    | cons b bs => exact .indent line begins (Int.ofNat_lt.mpr wider) text (more _)
  · refine laid_close _ closed open' ?_ more ?_
    · intro t ht mark
      obtain ⟨u, hu, text⟩ := text
      cases Option.mem_unique ht hu
      rw [mark] at text
      nomatch text
    · rintro rfl
      exact absurd (begins _ rfl) (by decide)

theorem not_remark_of_begins {c : Char} (h : Begins c) (cs : List Char) :
    ¬ Remark (c :: cs) := by
  rintro ⟨blanks, note, same, blank, shape⟩
  cases blanks with
  | cons b bs =>
    cases same
    exact absurd (blank c List.mem_cons_self) (by simp [h.1])
  | nil =>
    rcases shape with rfl | ⟨words, rfl, -⟩
    · cases same
    · cases same
      exact h.2.2 rfl

theorem scan_begins {done cs : List Char} {c : Char} {pieces : List Piece} (begins : Begins c)
    (h : Scan false done (c :: cs) pieces) :
    (∃ t more, pieces = .token t :: more ∧ t.kind.isLayout = false) ∨
      ∃ fault, pieces = [.broken fault] := by
  generalize same : c :: cs = rest at h
  cases h with
  | finish idle => exact absurd (same ▸ idle) (not_remark_of_begins begins cs)
  | @newline _ line rest _ idle more =>
    cases line with
    | nil =>
      cases same
      exact absurd rfl begins.2.1
    | cons d ds =>
      cases same
      exact absurd idle (not_remark_of_begins begins ds)
  | token blank begins read more => exact .inl ⟨_, _, rfl, Lexeme.read_isLayout read⟩
  | broken blank begins read => exact .inr ⟨_, rfl⟩

/-- The tokens of a scanned text are laid out behind any token that may stand before them. -/
theorem laid_of_scan {fresh : Bool} {done rest : List Char} {pieces : List Piece}
    (h : Scan fresh done rest pieces) {finish : Position} {blocks : List Nat} {ts : List Token}
    (read : tokens finish blocks pieces = .ok ts) {last : Option Kind}
    (place : if fresh then ∀ k ∈ last, k = .layout .newline
      else (∃ k ∈ last, k.isLayout = false) ∨ ∃ c ∈ rest.head?, Begins c) :
    Laid last (widths blocks) ts := by
  induction h generalizing last blocks ts with
  | @finish fresh _ tail idle =>
    cases read
    refine laid_finish finish blocks ?_
    rintro rfl
    cases fresh with
    | true => exact absurd (place _ rfl) (by decide)
    | false =>
      rcases place with ⟨k, hk, text⟩ | ⟨c, hc, begins⟩
      · cases hk
        nomatch text
      · cases tail with
        | nil => cases hc
        | cons d ds =>
          cases hc
          exact not_remark_of_begins begins ds idle
  | idle idle more ih => exact ih read place
  | content blank begins more ih =>
    obtain ⟨marks, still, us, met, inner, rfl⟩ := tokens_content read
    have laid (last : Option Kind) : Laid last (widths still) us :=
      ih inner (.inr ⟨_, rfl, begins⟩)
    refine laid_content met ?_ laid place
    rcases scan_begins begins more with ⟨t, more, rfl, text⟩ | ⟨fault, rfl⟩
    · obtain ⟨us, -, rfl⟩ := tokens_token inner
      exact ⟨t, rfl, text⟩
    · cases inner
  | @newline _ line _ _ idle more ih =>
    obtain ⟨us, inner, rfl⟩ := tokens_token read
    rcases place with ⟨k, hk, text⟩ | ⟨c, hc, begins⟩
    · cases hk
      exact .newline _ text (ih inner (by rintro k ⟨⟩; rfl))
    · cases line with
      | nil =>
        cases hc
        exact absurd rfl begins.2.1
      | cons d ds =>
        cases hc
        exact absurd idle (not_remark_of_begins begins ds)
  | token blank begins read' more ih =>
    obtain ⟨us, inner, rfl⟩ := tokens_token read
    have text := Lexeme.read_isLayout read'
    exact .text text (ih inner (.inl ⟨_, rfl, text⟩))
  | broken => cases read

theorem laid_ending {last : Option Kind} {stack : List Int} {ts : List Token}
    (h : Laid last stack ts) :
    ∃ body p, ts = body ++ [.eof p] ∧ ∀ t ∈ body, t.kind ≠ .layout .eof := by
  have behind {t : Token} {ts : List Token} (other : t.kind ≠ .layout .eof)
      (ih : ∃ body p, ts = body ++ [.eof p] ∧ ∀ t ∈ body, t.kind ≠ .layout .eof) :
      ∃ body p, t :: ts = body ++ [.eof p] ∧ ∀ t ∈ body, t.kind ≠ .layout .eof := by
    obtain ⟨body, p, rfl, others⟩ := ih
    exact ⟨t :: body, p, rfl, List.forall_mem_cons.mpr ⟨other, others⟩⟩
  induction h with
  | eof p => exact ⟨[], p, rfl, fun t ht => nomatch ht⟩
  | newline p text more ih => exact behind (by simp [Token.newline]) ih
  | indent line begins wider text more ih => exact behind (by simp [Token.indent]) ih
  | dedent p inside agrees more ih => exact behind (by simp [Token.dedent]) ih
  | text text more ih =>
    refine behind ?_ ih
    intro mark
    rw [mark] at text
    nomatch text

theorem laid_total {ts : List Token} (h : Laid none [0] ts) :
    marks .dedent ts = marks .indent ts := by
  obtain ⟨body, p, rfl, -⟩ := laid_ending h
  have count := laid_marks h (List.cons_ne_nil _ _)
  have closed := laid_split h (List.cons_ne_nil _ _)
  generalize replay [0] body = stack at count closed
  generalize lastKind none body = last at closed
  cases closed with
  | text text => nomatch text
  | eof =>
    have none (mark : Miaou.Layout) (other : mark ≠ .eof) : marks mark [.eof p] = 0 := by
      simp [marks, Token.eof, Ne.symm other]
    rw [marks, marks, List.countP_append, List.countP_append]
    have opened := none .indent (by decide)
    have closed := none .dedent (by decide)
    simp only [marks, List.length_singleton] at count opened closed ⊢
    omega

theorem laid_opening {last : Option Kind} {stack : List Int} {t : Token} {ts : List Token}
    (h : Laid last stack (t :: ts)) (mark : t.kind = .layout .indent) :
    (∃ width top, t.payload = .int width ∧ stack.head? = some top ∧ top < width) ∧
      (∀ k ∈ last, k = .layout .newline) ∧ ∃ u ∈ ts.head?, u.kind.isLayout = false := by
  cases h with
  | @indent _ top _ _ width line begins wider text more =>
    exact ⟨⟨width, top, rfl, rfl, wider⟩, begins, text⟩
  | text text more =>
    rw [mark] at text
    nomatch text
  | _ => nomatch mark

theorem laid_inhabited {last : Option Kind} {stack : List Int} {t : Token} {ts : List Token}
    (h : Laid last stack (t :: ts)) (mark : t.kind = .layout .dedent) :
    last ≠ some (.layout .indent) := by
  cases h with
  | dedent p inside agrees more => exact inside
  | text text more =>
    rw [mark] at text
    nomatch text
  | _ => nomatch mark

theorem laid_line {last : Option Kind} {stack : List Int} {t : Token} {ts : List Token}
    (h : Laid last stack (t :: ts)) (mark : t.kind = .layout .newline) :
    ∃ k ∈ last, k.isLayout = false := by
  cases h with
  | newline p text more => exact ⟨_, rfl, text⟩
  | text text more =>
    rw [mark] at text
    nomatch text
  | _ => nomatch mark

theorem lastKind_none (before : List Token) (k : Kind) :
    k ∈ lastKind none before ↔ ∃ l ∈ before.getLast?, l.kind = k := by
  rw [lastKind, Option.or_none]
  exact Option.map_eq_some_iff

theorem laidOut_of_laid {ts : List Token} (h : Laid none [0] ts) : LaidOut ts where
  ending := laid_ending h
  nested := by
    refine ⟨?_, laid_total h⟩
    intro before behind same
    subst same
    by_cases ne : behind = []
    · subst ne
      rw [List.append_nil] at h
      exact (laid_total h).le
    · have count := laid_marks h ne
      have base := List.length_pos_iff.mpr (laid_stack_ne (laid_split h ne))
      rw [List.length_singleton] at count
      omega
  opening := by
    intro before t behind same mark
    subst same
    obtain ⟨wider, begins, text⟩ := laid_opening (laid_split h (List.cons_ne_nil _ _)) mark
    refine ⟨wider, ?_, text⟩
    intro l hl
    exact begins _ ((lastKind_none before l.kind).mpr ⟨l, hl, rfl⟩)
  closing := by
    intro before run behind same closing stop t ht
    subst same
    rw [List.append_assoc] at h
    have ne : run ++ behind ≠ [] := by
      rintro none
      rw [List.append_eq_nil_iff] at none
      rw [none.1] at ht
      cases ht
    have inside := laid_run (laid_split h ne) closing stop t ht
    rwa [replay_append]
  inhabited := by
    intro before t behind same mark l hl opened
    subst same
    refine laid_inhabited (laid_split h (List.cons_ne_nil _ _)) mark ?_
    exact (lastKind_none before _).mpr ⟨l, hl, opened⟩
  lines := by
    intro before t behind same mark
    subst same
    obtain ⟨k, hk, text⟩ := laid_line (laid_split h (List.cons_ne_nil _ _)) mark
    obtain ⟨l, hl, rfl⟩ := (lastKind_none before k).mp hk
    exact ⟨l, hl, text⟩

def LineBegins (done : List Char) : Prop := done = [] ∨ done.getLast? = some '\n'

theorem lineBegins_newline (done : List Char) : LineBegins (done ++ ['\n']) :=
  .inr List.getLast?_concat

/-- The line of a content piece: its blanks make up the width and its first character, at the
place of the piece, begins a token. -/
def AtLine (source : List Char) (width : Nat) (first : Position) : Prop :=
  ∃ done blanks c rest, source = done ++ blanks ++ c :: rest ∧ LineBegins done ∧
    Blanks blanks ∧ Begins c ∧ width = indentation blanks ∧
    first = Position.start.after (done ++ blanks)

theorem scan_content {fresh : Bool} {done rest : List Char} {pieces before behind : List Piece}
    {width : Nat} {first : Position} (h : Scan fresh done rest pieces)
    (cut : pieces = before ++ .content width first :: behind)
    (place : fresh = true → LineBegins done) :
    AtLine (done ++ rest) width first ∧
      ∃ done' rest', first = Position.start.after done' ∧ Scan false done' rest' behind := by
  induction h generalizing before with
  | finish => simp at cut
  | idle idle more ih =>
    have found := ih cut fun _ => lineBegins_newline _
    simpa using found
  | @content done blanks rest c pieces blank begins more ih =>
    cases before with
    | nil =>
      cases cut
      exact ⟨⟨done, blanks, c, rest, by simp, place rfl, blank, begins, rfl, rfl⟩, _, _, rfl, more⟩
    | cons p before =>
      cases cut
      have found := ih rfl fun same => nomatch same
      simpa using found
  | newline idle more ih =>
    cases before with
    | nil => cases cut
    | cons p before =>
      cases cut
      have found := ih rfl fun _ => lineBegins_newline _
      simpa using found
  | token blank begins read more ih =>
    cases before with
    | nil => cases cut
    | cons p before =>
      cases cut
      have found := ih rfl fun same => nomatch same
      simpa using found
  | broken blank begins read =>
    cases before with
    | nil => cases cut
    | cons p before => simp at cut

theorem line_after_line (done : List Char) {line : List Char} (h : '\n' ∉ line) :
    (Position.start.after (done ++ line)).line = (Position.start.after done).line := by
  rw [Position.after_append, Position.after_line _ h]

theorem line_after_newline (done : List Char) {line : List Char} (h : '\n' ∉ line) :
    (Position.start.after (done ++ line ++ ['\n'])).line =
      (Position.start.after done).line + 1 := by
  rw [Position.after_newline, line_after_line _ h]

theorem scan_lines {fresh : Bool} {done rest : List Char} {pieces : List Piece}
    (h : Scan fresh done rest pieces) {width : Nat} {first : Position}
    (found : .content width first ∈ pieces) :
    (Position.start.after done).line + (if fresh then 0 else 1) ≤ first.line := by
  induction h with
  | finish => cases found
  | idle idle more ih =>
    have further := ih found
    rw [line_after_newline _ (newline_not_mem_remark idle)] at further
    simp only [if_true] at further ⊢
    omega
  | @content done _ _ _ _ blank begins more ih =>
    have same := line_after_line done (newline_not_mem_blanks blank)
    rcases List.mem_cons.mp found with here | found
    · cases here
      rw [same]
      exact Nat.le_refl _
    · have further := ih found
      rw [same] at further
      exact Nat.le_of_succ_le further
  | newline idle more ih =>
    have further := ih (by simpa using found)
    rw [line_after_newline _ (newline_not_mem_remark idle)] at further
    exact further
  | token blank begins read more ih =>
    have further := ih (by simpa using found)
    rw [List.append_assoc, Position.after_append] at further
    exact Nat.le_trans (Nat.add_le_add_right (Position.line_le_after _ _) 1) further
  | broken => simp at found

theorem read_cause {c : Char} {cs : List Char} {e : Misreading}
    (h : Lexeme.read c cs = .error e) : e.cause ≠ .badIndentation := by
  unfold Lexeme.read at h
  split at h
  · unfold Lexeme.readString at h
    split at h <;> cases h
    exact Cause.noConfusion
  split at h
  · unfold Lexeme.readNumber Lexeme.ofNumber at h
    split at h
    · cases h
    · split at h <;> cases h
      exact Cause.noConfusion
  split at h
  · cases h
  · unfold Lexeme.readSymbol at h
    split at h <;> cases h
    exact Cause.noConfusion

theorem scan_broken {fresh : Bool} {done rest : List Char} {pieces : List Piece}
    (h : Scan fresh done rest pieces) {fault : Fault} (found : .broken fault ∈ pieces) :
    fault.cause ≠ .badIndentation := by
  cases scan_found h _ found with
  | broken here begins read => exact read_cause read

theorem scan_token {fresh : Bool} {done rest : List Char} {pieces : List Piece}
    (h : Scan fresh done rest pieces) {t : Token} (found : .token t ∈ pieces) :
    t.kind.isLayout = false ∨ t.kind = .layout .newline :=
  (scan_found h _ found).kind

theorem replay_closed (width : Nat) (p : Position) (closed still : List Nat) :
    replay (widths (closed ++ still)) (closed.map fun _ => .dedent width p) = widths still := by
  induction closed with
  | nil => rfl
  | cons w closed ih => exact ih

theorem replay_adjust {line width : Nat} {blocks still : List Nat} {marks : List Token}
    (h : adjust line width blocks = some (marks, still)) :
    replay (widths blocks) marks = widths still := by
  rcases adjust_cases h with ⟨-, rfl, rfl⟩ | ⟨closed, rfl, -, -, rfl⟩
  · rfl
  · exact replay_closed ..

theorem replay_lay {blocks still : List Nat} {pieces : List Piece} {ts : List Token}
    (h : lay blocks pieces = .ok (ts, still)) (nested : Nested blocks)
    (texts : ∀ t, .token t ∈ pieces → t.kind.isLayout = false ∨ t.kind = .layout .newline) :
    replay (widths blocks) ts = widths still ∧ Nested still := by
  induction pieces generalizing blocks ts with
  | nil =>
    cases h
    exact ⟨rfl, nested⟩
  | cons piece pieces ih =>
    have inner : ∀ t, .token t ∈ pieces → t.kind.isLayout = false ∨ t.kind = .layout .newline :=
      fun t ht => texts t (List.mem_cons_of_mem _ ht)
    cases piece with
    | broken fault => cases h
    | token t =>
      obtain ⟨⟨us, open'⟩, read, same⟩ := map_ok h
      cases same
      obtain ⟨reached, nested⟩ := ih read nested inner
      refine ⟨?_, nested⟩
      rcases texts t List.mem_cons_self with text | mark
      · rw [replay_text text, reached]
      · rw [replay]
        simpa [mark] using reached
    | content width first =>
      rw [lay] at h
      cases met : adjust first.line width blocks with
      | none =>
        rw [met] at h
        cases h
      | some adjusted =>
        obtain ⟨marks, middle⟩ := adjusted
        rw [met] at h
        obtain ⟨⟨us, open'⟩, read, same⟩ := map_ok h
        cases same
        obtain ⟨reached, nested⟩ := ih read (nested_adjust met nested) inner
        rw [replay_append, replay_adjust met]
        exact ⟨reached, nested⟩

theorem tokens_behind {finish first : Position} {blocks : List Nat} {done rest : List Char}
    {pieces : List Piece} (h : Scan false done rest pieces)
    (place : first = Position.start.after done) :
    tokens finish blocks pieces ≠ .error ⟨.badIndentation, first, ""⟩ := by
  intro refused
  rcases tokens_error refused with found | ⟨width, second, found, same⟩
  · exact scan_broken h found rfl
  · cases same
    have later := scan_lines h found
    rw [← place] at later
    exact absurd later (Nat.not_succ_le_self _)

end Layout

/-- Layout tokens are well formed. A line with content is refused exactly when it is narrower than
the innermost open block and as wide as none that is open, the margin included. -/
theorem tokenize_layout (source : String) :
    (∀ ts, tokenize source = .ok ts → LaidOut ts) ∧
      ∀ before width first behind,
        Piece.ofScript source.toList = before ++ .content width first :: behind →
        Layout.AtLine source.toList width first ∧
          ∀ ts blocks, Layout.lay [] before = .ok (ts, blocks) →
            replay [0] ts = Layout.widths blocks ∧
              (tokenize source = .error ⟨.badIndentation, first, ""⟩ ↔
                width < blocks.headD 0 ∧ width ∉ blocks ++ [0]) := by
  have scan := Piece.scan_ofScript source.toList
  refine ⟨?_, ?_⟩
  · intro ts read
    exact Layout.laidOut_of_laid (Layout.laid_of_scan scan read (by simp))
  intro before width first behind cut
  obtain ⟨line, done, rest, place, inside⟩ := Layout.scan_content scan cut fun _ => .inl rfl
  refine ⟨line, ?_⟩
  intro ts blocks laid
  have texts : ∀ t, .token t ∈ before → t.kind.isLayout = false ∨ t.kind = .layout .newline := by
    intro t ht
    refine Layout.scan_token scan ?_
    rw [cut]
    exact List.mem_append_left _ ht
  obtain ⟨reached, nested⟩ := Layout.replay_lay laid Layout.nested_nil texts
  refine ⟨reached, ?_⟩
  rw [← @Layout.adjust_eq_none first.line width blocks nested, tokenize, cut,
    Layout.tokens_append, laid]
  change (Layout.tokens _ blocks (.content width first :: behind)).map _ = _ ↔ _
  rw [Layout.tokens]
  cases met : Layout.adjust first.line width blocks with
  | none => exact ⟨fun _ => rfl, fun _ => rfl⟩
  | some adjusted =>
    refine ⟨?_, fun none => by cases none⟩
    intro refused
    cases read : Layout.tokens (Position.start.after source.toList) adjusted.2 behind with
    | ok us =>
      simp only [read] at refused
      cases refused
    | error fault =>
      simp only [read] at refused
      cases refused
      exact absurd read (Layout.tokens_behind inside place)

theorem tokenize_layout_narrow :
    LaidOut [⟨.identifier, .str "a", ⟨1, 1⟩⟩, .newline ⟨1, 2⟩, .indent 4 2,
      ⟨.identifier, .str "b", ⟨2, 5⟩⟩, .dedent 0 ⟨2, 6⟩, .eof ⟨2, 6⟩] ∧
      tokenize "a\n    b\n  c" = .error ⟨.badIndentation, ⟨3, 3⟩, ""⟩ := by
  refine ⟨(tokenize_layout "a\n    b").1 _ (by decide +kernel), ?_⟩
  have pieces : Piece.ofScript "a\n    b\n  c".toList =
      [.content 0 ⟨1, 1⟩, .token ⟨.identifier, .str "a", ⟨1, 1⟩⟩, .token (.newline ⟨1, 2⟩),
        .content 4 ⟨2, 5⟩, .token ⟨.identifier, .str "b", ⟨2, 5⟩⟩, .token (.newline ⟨2, 6⟩)] ++
      .content 2 ⟨3, 3⟩ :: [.token ⟨.identifier, .str "c", ⟨3, 3⟩⟩] := by decide +kernel
  obtain ⟨-, refused⟩ := (tokenize_layout "a\n    b\n  c").2 _ _ _ _ pieces
  exact (refused _ [4] rfl).2.mpr (by decide)

end Miaou
