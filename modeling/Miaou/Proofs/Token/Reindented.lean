import Mathlib.Data.List.Forall2
import Mathlib.Order.Monotone.Basic
import Miaou.Proofs.Lines
import Miaou.Proofs.Token.Scanner

/-!
Scripts that differ in indentation only. Where the scanner comes to the beginning of a line the two
texts may have different blanks, but the widths of the lines with content are related by a strictly
increasing function that keeps zero; every other line is the same in both.

The two runs go on turn by turn: the open blocks of the second are those of the first under the
function, and the tokens found are the same up to columns and the widths of the layout marks.
-/

namespace Miaou

open Text Lexeme Piece

/-- The scanner comes to the beginning of the line of this number. -/
def LineStartsAt (cs : List Char) (line : Nat) : Prop :=
  ∃ before behind, cs = before ++ behind ∧ Scanner.LineStarts before behind ∧
    (Position.start.after before).line = line

def HasContent (row : List Char) : Prop := ∃ c ∈ (row.dropWhile isInline).head?, c ≠ '#'

/-- Two rows of one line. They are the same behind their blanks, and the whole rows are the same
unless the scanner comes to the beginning of the line; there a row with content goes from its width
to the related one. -/
structure RowReindented (f : Nat → Nat) (starts : Prop) (row row' : List Char) : Prop where
  body : row'.dropWhile isInline = row.dropWhile isInline
  kept : ¬starts → row' = row
  width : starts → HasContent row →
    indentation (row'.takeWhile isInline) = f (indentation (row.takeWhile isInline))

/-- The second text is the first one with its lines indented anew. -/
structure Reindented (f : Nat → Nat) (cs cs' : List Char) : Prop where
  lines : (Lines.cut cs').length = (Lines.cut cs).length
  rows : ∀ n row row', (Lines.cut cs)[n]? = some row → (Lines.cut cs')[n]? = some row' →
    RowReindented f (LineStartsAt cs (n + 1)) row row'

/-- The token of a script that is indented anew: only the column may differ, and the width of a
layout mark is the related one. -/
structure Token.Reindents (f : Nat → Nat) (t t' : Token) : Prop where
  kind : t'.kind = t.kind
  line : t'.position.line = t.position.line
  payload : if t.kind = .layout .indent ∨ t.kind = .layout .dedent then
      ∃ width : Nat, t.payload = .int width ∧ t'.payload = .int (f width)
    else t'.payload = t.payload

theorem Position.line_after (p : Position) (cs : List Char) :
    (p.after cs).line = p.line + cs.count '\n' := by
  induction cs generalizing p with
  | nil => rfl
  | cons c cs ih =>
    rw [after_cons, ih, next]
    by_cases feed : c = '\n'
    · rw [feed, if_pos rfl, List.count_cons_self]
      exact Nat.add_right_comm ..
    · rw [if_neg feed, List.count_cons_of_ne feed]

/-! The texts that are left -/

structure Indents (f : Nat → Nat) (starts : Prop) (blanks blanks' rest : List Char) : Prop where
  blank : Blanks blanks
  blank' : Blanks blanks'
  stop : Stops isInline rest
  kept : ¬starts → blanks' = blanks
  width : starts → (∀ c ∈ rest.head?, Begins c → indentation blanks' = f (indentation blanks))

/-- The texts go on alike inside a line, and line by line they are indented anew. -/
inductive Onward (f : Nat → Nat) (starts : Nat → Prop) :
    (line : Nat) → List Char → List Char → Prop where
  | nil {line : Nat} : Onward f starts line [] []
  | char {line : Nat} {c : Char} {cs cs' : List Char} (plain : c ≠ '\n')
      (more : Onward f starts line cs cs') : Onward f starts line (c :: cs) (c :: cs')
  | newline {line : Nat} {blanks blanks' rest rest' : List Char}
      (indents : Indents f (starts (line + 1)) blanks blanks' rest)
      (more : Onward f starts (line + 1) rest rest') :
      Onward f starts line ('\n' :: (blanks ++ rest)) ('\n' :: (blanks' ++ rest'))

namespace Onward

variable {f : Nat → Nat} {starts : Nat → Prop} {line : Nat} {cs cs' : List Char}

theorem append {row : List Char} (plain : '\n' ∉ row) (h : Onward f starts line cs cs') :
    Onward f starts line (row ++ cs) (row ++ cs') := by
  induction row with
  | nil => exact h
  | cons c row ih =>
    rw [List.mem_cons, not_or] at plain
    exact .char (Ne.symm plain.1) (ih plain.2)

theorem row {row : List Char} (plain : '\n' ∉ row) : Onward f starts line row row := by
  have whole := append plain (@nil f starts line)
  rwa [List.append_nil] at whole

theorem stops (h : Onward f starts line cs cs') {p : Char → Bool} (stop : Stops p cs) :
    Stops p cs' := by
  cases h with
  | nil => exact stop
  | char plain more => simpa using stop
  | newline indents more => simpa using stop

theorem pass {taken rest : List Char} (h : Onward f starts line (taken ++ rest) cs')
    (inside : ∀ k, line < k → k ≤ line + taken.count '\n' → ¬starts k) :
    ∃ rest', cs' = taken ++ rest' ∧ Onward f starts (line + taken.count '\n') rest rest' := by
  induction taken generalizing line cs' with
  | nil => exact ⟨cs', rfl, h⟩
  | cons c taken ih =>
    rw [List.cons_append] at h
    generalize same : taken ++ rest = text at h
    cases h with
    | @char _ _ _ cs' plain more =>
      rw [List.count_cons_of_ne plain] at inside ⊢
      obtain ⟨rest', rfl, onward⟩ := ih (same ▸ more) inside
      exact ⟨rest', rfl, onward⟩
    | @newline _ blanks blanks' tail tail' indents more =>
      rw [List.count_cons_self] at inside ⊢
      have kept := indents.kept (inside _ (Nat.lt_succ_self _) (by omega))
      have onward := more.append (newline_not_mem_blanks indents.blank)
      rw [← same] at onward
      obtain ⟨rest', split, onward⟩ := ih onward fun k low high => inside k (by omega) (by omega)
      refine ⟨rest', ?_, ?_⟩
      · rw [kept, split, List.cons_append]
      · rwa [Nat.add_right_comm, Nat.add_assoc] at onward

theorem pass_row (row : List Char) {rest : List Char} (h : Onward f starts line (row ++ rest) cs')
    (plain : '\n' ∉ row) : ∃ rest', cs' = row ++ rest' ∧ Onward f starts line rest rest' := by
  have feeds : row.count '\n' = 0 := List.count_eq_zero.mpr plain
  have passed := h.pass fun k low high => by omega
  rwa [feeds, Nat.add_zero] at passed

theorem sameLine (h : Onward f starts line cs cs') : SameLine cs cs' := by
  induction h with
  | nil => exact .inl rfl
  | @char _ c cs cs' plain more ih =>
    rcases ih with rfl | ⟨row, us, vs, rfl, rfl⟩
    · exact .inl rfl
    · exact .inr ⟨c :: row, us, vs, rfl, rfl⟩
  | newline indents more => exact .inr ⟨[], _, _, rfl, rfl⟩

end Onward

theorem RowReindented.indents {f : Nat → Nat} {starts : Prop} {row row' : List Char}
    (h : RowReindented f starts row row') {tail : List Char} (stop : Stops (· ≠ '\n') tail) :
    Indents f starts (row.takeWhile isInline) (row'.takeWhile isInline)
      (row.dropWhile isInline ++ tail) := by
  have feed : ∀ c ∈ tail.head?, c = '\n' := fun c hc => by simpa using stop c hc
  have inner := stops_dropWhile isInline row
  refine ⟨blanks_takeWhile row, blanks_takeWhile row', ?_, fun no => by rw [h.kept no],
    fun yes c hc begins => ?_⟩
  · cases body : row.dropWhile isInline with
    | nil =>
      intro c hc
      rw [feed c hc]
      decide
    | cons d ds =>
      rw [body] at inner
      simpa using inner
  · refine h.width yes ⟨c, ?_, begins.2.2⟩
    cases body : row.dropWhile isInline with
    | nil =>
      rw [body] at hc
      exact absurd (feed c hc) begins.2.1
    | cons d ds =>
      rw [body] at hc
      exact hc

theorem onward_of_rows {f : Nat → Nat} {starts : Nat → Prop} {line : Nat} {cs cs' : List Char}
    (lines : (Lines.cut cs').length = (Lines.cut cs).length)
    (rows : ∀ n row row', (Lines.cut cs)[n]? = some row → (Lines.cut cs')[n]? = some row' →
      RowReindented f (starts (line + n)) row row') :
    ∃ blanks blanks' rest rest', cs = blanks ++ rest ∧ cs' = blanks' ++ rest' ∧
      Indents f (starts line) blanks blanks' rest ∧ Onward f starts line rest rest' := by
  obtain ⟨row, tail, rfl, plain, stop⟩ := Text.exists_row cs
  obtain ⟨row', tail', rfl, plain', stop'⟩ := Text.exists_row cs'
  have several (cs : List Char) : 0 < (Lines.cut cs).length :=
    List.length_pos_iff.mpr (Lines.cut_ne_nil cs)
  have split (row tail : List Char) : row ++ tail =
      row.takeWhile isInline ++ (row.dropWhile isInline ++ tail) := by
    rw [← List.append_assoc, List.takeWhile_append_dropWhile]
  have body : '\n' ∉ row.dropWhile isInline :=
    fun hc => plain ((List.dropWhile_suffix isInline).subset hc)
  have cut_row {row : List Char} (plain : '\n' ∉ row) : Lines.cut (row ++ []) = [row] := by
    rw [List.append_nil, Lines.cut_line plain]
  cases tail with
  | nil =>
    rw [cut_row plain] at lines rows
    cases tail' with
    | nil =>
      rw [cut_row plain'] at lines rows
      have same := rows 0 row row' rfl rfl
      refine ⟨_, _, _, _, split row [], split row' [], same.indents stop, ?_⟩
      rw [same.body, List.append_nil]
      exact .row body
    | cons c more' =>
      have feed : c = '\n' := by simpa using stops_cons.mp stop'
      rw [feed, Lines.cut_newline plain'] at lines
      have further := several more'
      simp only [List.length_cons, List.length_nil] at lines
      omega
  | cons c more =>
    obtain rfl : c = '\n' := by simpa using stops_cons.mp stop
    rw [Lines.cut_newline plain] at lines rows
    cases tail' with
    | nil =>
      rw [cut_row plain'] at lines
      have further := several more
      simp only [List.length_cons, List.length_nil] at lines
      omega
    | cons c' more' =>
      obtain rfl : c' = '\n' := by simpa using stops_cons.mp stop'
      rw [Lines.cut_newline plain'] at lines rows
      have same := rows 0 row row' rfl rfl
      have shorter : more.length < (row ++ '\n' :: more).length := by simp; omega
      obtain ⟨blanks, blanks', rest, rest', rfl, rfl, indents, onward⟩ :=
        @onward_of_rows f starts (line + 1) more more' (Nat.succ.inj lines) fun n r r' hr hr' => by
          have next := rows (n + 1) r r' hr hr'
          rwa [← Nat.add_assoc, Nat.add_right_comm] at next
      refine ⟨_, _, _, _, split row _, split row' _, same.indents stop, ?_⟩
      rw [same.body]
      exact .append body (.newline indents onward)
termination_by cs.length

/-! The open blocks -/

namespace Layout

variable {f : Nat → Nat}

theorem headD_map (zero : f 0 = 0) (blocks : List Nat) :
    (blocks.map f).headD 0 = f (blocks.headD 0) := by
  cases blocks with
  | nil => exact zero.symm
  | cons b bs => rfl

theorem reindents_indent (f : Nat → Nat) (width line : Nat) :
    Token.Reindents f (.indent width line) (.indent (f width) line) :=
  ⟨rfl, rfl, width, rfl, rfl⟩

theorem reindents_dedent (f : Nat → Nat) (width : Nat) {p p' : Position} (line : p'.line = p.line) :
    Token.Reindents f (.dedent width p) (.dedent (f width) p') :=
  ⟨rfl, line, width, rfl, rfl⟩

theorem reindents_text (f : Nat → Nat) {kind : Kind} (text : kind.isLayout = false)
    (payload : Payload) {p p' : Position} (line : p'.line = p.line) :
    Token.Reindents f ⟨kind, payload, p⟩ ⟨kind, payload, p'⟩ := by
  refine ⟨rfl, line, ?_⟩
  rw [if_neg]
  rintro (rfl | rfl) <;> cases text

theorem adjust_reindented (mono : StrictMono f) (zero : f 0 = 0) (line width : Nat)
    (blocks : List Nat) :
    match adjust line width blocks with
    | none => adjust line (f width) (blocks.map f) = none
    | some (marks, still) => ∃ marks',
      adjust line (f width) (blocks.map f) = some (marks', still.map f) ∧
        List.Forall₂ (Token.Reindents f) marks marks' := by
  have wider (a : Nat) : decide (f width < f a) = decide (width < a) :=
    decide_eq_decide.mpr mono.lt_iff_lt
  have closed : (blocks.map f).takeWhile (f width < ·) =
      (blocks.takeWhile (width < ·)).map f := by
    rw [List.takeWhile_map]
    congr 1
    exact congrArg (List.takeWhile · blocks) (funext wider)
  have still : (blocks.map f).dropWhile (f width < ·) =
      (blocks.dropWhile (width < ·)).map f := by
    rw [List.dropWhile_map]
    congr 1
    exact congrArg (List.dropWhile · blocks) (funext wider)
  unfold adjust
  simp only [closed, still, headD_map zero, mono.lt_iff_lt, mono.injective.eq_iff]
  by_cases opens : blocks.headD 0 < width
  · simp only [if_pos opens]
    exact ⟨_, rfl, .cons (reindents_indent f width line) .nil⟩
  · simp only [if_neg opens]
    by_cases met : (blocks.dropWhile (width < ·)).headD 0 = width
    · simp only [if_pos met]
      refine ⟨_, rfl, ?_⟩
      rw [List.map_map]
      exact List.forall₂_map_left_iff.mpr (List.forall₂_map_right_iff.mpr
        (List.forall₂_same.mpr fun _ _ => reindents_dedent f width rfl))
    · simp only [if_neg met]

end Layout

/-! The two runs -/

namespace Scanner

variable {f : Nat → Nat} {starts : Nat → Prop} {cs cs' : List Char} {x x' y : Scanner}

theorem Reaches.line_le (h : Reaches x y) : x.position.line ≤ y.position.line := by
  obtain ⟨taken, -, done⟩ := h.text
  rw [position, position, done, Position.after_append]
  exact Position.line_le_after _ taken

theorem Reaches.startsAt (run : Reaches (begin cs) x) (fresh : x.fresh = true)
    (begins : Layout.LineBegins x.done) : LineStartsAt cs x.position.line := by
  obtain ⟨done, rest, _, blocks, tokens⟩ := x
  cases fresh
  have whole := run.whole
  exact ⟨done, rest, whole.symm, ⟨begins, blocks, tokens, whole ▸ run⟩, rfl⟩

theorem Reaches.not_startsAt (run : Reaches (begin cs) x) (last : ∀ y, ¬Goes x y) (k : Nat)
    (further : x.position.line < k) : ¬LineStartsAt cs k := by
  rintro ⟨before, behind, rfl, ⟨-, blocks, tokens, run'⟩, rfl⟩
  rcases run.total run' with later | earlier
  · rcases later.cases_head with rfl | ⟨y, step, -⟩
    · exact Nat.lt_irrefl _ further
    · exact last y step
  · exact Nat.not_lt.mpr earlier.line_le further

theorem Goes.not_startsAt (run : Reaches (begin cs) x) (h : Goes x y) (inside : y.fresh = false)
    (k : Nat) (further : x.position.line < k) (within : k ≤ y.position.line) :
    ¬LineStartsAt cs k := by
  rintro ⟨before, behind, rfl, ⟨begins, blocks, tokens, run'⟩, rfl⟩
  rcases run.total run' with later | earlier
  · rcases later.cases_head with rfl | ⟨z, step, later⟩
    · exact Nat.lt_irrefl _ further
    obtain rfl := h.unique step
    obtain ⟨taken, rest, done⟩ := Reaches.text later
    change before = y.done ++ taken at done
    have oneLine : '\n' ∉ taken := by
      rw [position, done, Position.after_append, Position.line_after _ taken] at within
      exact List.count_eq_zero.mp (Nat.le_zero.mp (Nat.le_of_add_le_add_left within))
    have none : taken = [] := by
      by_contra open'
      rcases begins with rfl | ended
      · exact open' (List.append_eq_nil_iff.mp done.symm).2
      · rw [done, List.getLast?_append_of_ne_nil _ open'] at ended
        exact oneLine (List.mem_of_getLast? ended)
    rcases Reaches.left_le later with rfl | less
    · cases inside
    · simp only [left, rest, none, inside, List.nil_append, Bool.toNat_true, Bool.toNat_false]
        at less
      omega
  · exact Nat.not_lt.mpr earlier.line_le further

inductive Margins (f : Nat → Nat) (starts : Nat → Prop) (line : Nat) :
    (fresh : Bool) → List Char → List Char → Prop where
  | fresh {blanks blanks' rest rest' : List Char} (indents : Indents f True blanks blanks' rest)
      (more : Onward f starts line rest rest') :
      Margins f starts line true (blanks ++ rest) (blanks' ++ rest')
  | inside {rest rest' : List Char} (more : Onward f starts line rest rest') :
      Margins f starts line false rest rest'

/-- Two states of the runs over a script and over the script indented anew. -/
structure Reindents (f : Nat → Nat) (starts : Nat → Prop) (x x' : Scanner) : Prop where
  fresh : x'.fresh = x.fresh
  line : x'.position.line = x.position.line
  blocks : x'.blocks = x.blocks.map f
  tokens : List.Forall₂ (Token.Reindents f) x.tokens x'.tokens
  text : Margins f starts x.position.line x.fresh x.rest x'.rest

theorem margins_fresh {line : Nat} {blanks rest text' : List Char}
    (h : Margins f starts line true (blanks ++ rest) text') (blank : Blanks blanks)
    (stop : Stops isInline rest) :
    ∃ blanks' rest', text' = blanks' ++ rest' ∧ Indents f True blanks blanks' rest ∧
      Onward f starts line rest rest' := by
  generalize same : blanks ++ rest = text at h
  cases h with
  | @fresh blanks₁ blanks' rest₁ rest' indents more =>
    obtain rfl : blanks = blanks₁ := by
      rw [← takeWhile_run blank stop, same, takeWhile_run indents.blank indents.stop]
    obtain rfl : rest = rest₁ := List.append_cancel_left same
    exact ⟨blanks', rest', rfl, indents, more⟩

theorem margins_inside {line : Nat} {rest rest' : List Char}
    (h : Margins f starts line false rest rest') : Onward f starts line rest rest' := by
  cases h with
  | inside more => exact more

theorem onward_newline {line : Nat} {rest text' : List Char}
    (h : Onward f starts line ('\n' :: rest) text') (begins : starts (line + 1)) :
    ∃ rest', text' = '\n' :: rest' ∧ Margins f starts (line + 1) true rest rest' := by
  generalize same : '\n' :: rest = text at h
  cases h with
  | nil => cases same
  | char plain more =>
    cases same
    exact absurd rfl plain
  | newline indents more =>
    cases same
    exact ⟨_, rfl, .fresh ⟨indents.blank, indents.blank', indents.stop, fun no => absurd trivial no,
      fun _ => indents.width begins⟩ more⟩

theorem line_pass {done done' taken taken' : List Char}
    (line : (Position.start.after done').line = (Position.start.after done).line)
    (feeds : taken'.count '\n' = taken.count '\n') :
    (Position.start.after (done' ++ taken')).line =
      (Position.start.after (done ++ taken)).line := by
  simp [Position.line_after _ taken', Position.line_after _ taken, line, feeds]

theorem count_blanks {blanks : List Char} (blank : Blanks blanks) : blanks.count '\n' = 0 :=
  List.count_eq_zero.mpr (newline_not_mem_blanks blank)

theorem margins_feed {line : Nat} {rest rest' : List Char} (stop : Stops (· ≠ '\n') rest)
    (more : Onward f starts line rest rest') : Margins f starts line true rest rest' := by
  refine @Margins.fresh f starts line [] [] rest rest'
    ⟨blanks_nil, blanks_nil, ?_, fun _ => rfl, ?_⟩ more
  · intro c hc
    have feed : c = '\n' := by simpa using stop c hc
    rw [feed]
    decide
  · intro _ c hc begins
    have feed : c = '\n' := by simpa using stop c hc
    exact absurd feed begins.2.1

/-- A turn of the first run is answered by one of the second. -/
theorem Goes.reindents (mono : StrictMono f) (zero : f 0 = 0) (run : Reaches (begin cs) x)
    (h : Goes x y) (same : Reindents f (LineStartsAt cs) x x') :
    ∃ y', Goes x' y' ∧ Reindents f (LineStartsAt cs) y y' := by
  have run' : Reaches (begin cs) y := .tail run h
  have inside := h.not_startsAt run
  obtain ⟨done', text', fresh', blocks', tokens'⟩ := x'
  obtain ⟨freshs, line, open', found, text⟩ := same
  cases h.takes with
  | @idle done blanks rest blocks tokens blank =>
    cases freshs
    cases open'
    have ended : (Position.start.after (done ++ (blanks ++ ['\n']))).line =
        (Position.start.after done).line + 1 := by
      rw [← List.append_assoc, Layout.line_after_newline done (newline_not_mem_blanks blank)]
    have begins : LineStartsAt cs ((Position.start.after done).line + 1) :=
      ended ▸ run'.startsAt rfl (List.append_assoc done blanks _ ▸ Layout.lineBegins_newline _)
    obtain ⟨blanks', rest', rfl, indents, more⟩ :=
      margins_fresh text blank (stops_cons.mpr (by decide))
    obtain ⟨rest', rfl, margins⟩ := onward_newline more begins
    refine ⟨_, Takes.turn (.idle indents.blank'), rfl, line_pass line ?_, rfl, found, ?_⟩
    · rw [List.count_append, List.count_append, count_blanks blank, count_blanks indents.blank']
    · exact ended.symm ▸ margins
  | @remark done blanks words rest blocks tokens blank plain stop =>
    cases freshs
    cases open'
    have idle := newline_not_mem_remark (remark_comment blank plain)
    have here := Layout.line_after_line done idle
    rw [List.append_assoc] at text
    obtain ⟨blanks', text', rfl, indents, more⟩ :=
      margins_fresh text blank (stops_cons.mpr (by decide))
    obtain ⟨rest', rfl, more'⟩ := more.pass_row ('#' :: words) (by simpa using plain)
    rw [← List.append_assoc]
    refine ⟨_, Takes.turn (.remark indents.blank' plain (more'.stops stop)), rfl,
      line_pass line ?_, rfl, found, ?_⟩
    · rw [List.count_append, List.count_append, count_blanks blank, count_blanks indents.blank']
    · exact margins_feed stop (here.symm ▸ more')
  | @content done blanks rest c blocks still tokens marks blank begins fits =>
    cases freshs
    cases open'
    have here := Layout.line_after_line done (newline_not_mem_blanks blank)
    obtain ⟨blanks', text', rfl, indents, more⟩ :=
      margins_fresh text blank (stops_cons.mpr begins.1)
    obtain ⟨rest', rfl, more'⟩ := more.pass_row [c] (by simpa using begins.2.1.symm)
    have lines : (Position.start.after (done' ++ blanks')).line =
        (Position.start.after (done ++ blanks)).line :=
      line_pass line (by rw [count_blanks blank, count_blanks indents.blank'])
    have widths := indents.width trivial c rfl begins
    have fits' := Layout.adjust_reindented mono zero (Position.start.after (done ++ blanks)).line
      (indentation blanks) blocks
    rw [fits] at fits'
    obtain ⟨marks', fits', alike⟩ := fits'
    rw [← widths, ← lines] at fits'
    refine ⟨_, Takes.turn (.content indents.blank' begins fits'), rfl, lines, rfl,
      List.rel_append found alike, .inside ?_⟩
    exact here.symm ▸ more
  | @newline done rest blocks tokens =>
    cases freshs
    cases open'
    have ended := Position.after_newline done
    have begins : LineStartsAt cs ((Position.start.after done).line + 1) := by
      have begins := run'.startsAt rfl (Layout.lineBegins_newline _)
      rwa [position, ended] at begins
    have more := margins_inside text
    obtain ⟨rest', rfl, margins⟩ := onward_newline more begins
    refine ⟨_, Takes.turn .newline, rfl, line_pass line rfl, rfl,
      List.rel_append found (.cons ⟨rfl, line, rfl⟩ .nil), ?_⟩
    rw [position, ended]
    exact margins
  | @blank done rest c blocks tokens inline =>
    cases freshs
    cases open'
    have here := Layout.line_after_line done
      (newline_not_mem_blanks (blanks_cons inline blanks_nil))
    have more := margins_inside text
    obtain ⟨rest', rfl, more'⟩ := more.pass_row [c]
      (newline_not_mem_blanks (blanks_cons inline blanks_nil))
    exact ⟨_, Takes.turn (.blank inline), rfl, line_pass line rfl, rfl, found,
      .inside (here.symm ▸ more')⟩
  | @note done words rest blocks tokens plain stop =>
    cases freshs
    cases open'
    have plain' : '\n' ∉ '#' :: words := by simpa using plain
    have here := Layout.line_after_line done plain'
    have more := margins_inside text
    obtain ⟨rest', rfl, more'⟩ := more.pass_row ('#' :: words) plain'
    exact ⟨_, Takes.turn (.note plain (more'.stops stop)), rfl, line_pass line rfl, rfl, found,
      .inside (here.symm ▸ more')⟩
  | @lexeme done taken rest c l blocks tokens begins read size =>
    cases freshs
    cases open'
    have more := margins_inside text
    have here : (Position.start.after (done ++ c :: taken)).line =
        (Position.start.after done).line + (c :: taken).count '\n' := by
      rw [Position.after_append, Position.line_after]
    obtain ⟨rest', rfl, more'⟩ := more.pass fun k low high => inside rfl k low (here ▸ high)
    have read' := read_ahead read size more'.sameLine
    refine ⟨_, Takes.turn (.lexeme begins read' size), rfl, line_pass line rfl, rfl,
      List.rel_append found (.cons ?_ .nil), .inside (here.symm ▸ more')⟩
    exact Layout.reindents_text f (read_isLayout read) l.payload line

theorem closed_reindents (zero : f 0 = 0) {x x' : Scanner}
    (line : x'.position.line = x.position.line) (blocks : x'.blocks = x.blocks.map f)
    (tokens : List.Forall₂ (Token.Reindents f) x.tokens x'.tokens) :
    List.Forall₂ (Token.Reindents f) x.closed x'.closed := by
  have mark := Layout.reindents_dedent f 0 line
  rw [zero] at mark
  refine List.rel_append tokens (List.rel_append ?_ (.cons ⟨rfl, line, rfl⟩ .nil))
  rw [blocks, List.map_map]
  exact List.forall₂_map_left_iff.mpr (List.forall₂_map_right_iff.mpr
    (List.forall₂_same.mpr fun _ _ => mark))

theorem Reindents.ends {ts : List Token} (zero : f 0 = 0) (h : x.turn = .ends ts)
    (same : Reindents f starts x x') :
    ∃ ts', x'.turn = .ends ts' ∧ List.Forall₂ (Token.Reindents f) ts ts' := by
  obtain ⟨done', text', fresh', blocks', tokens'⟩ := x'
  obtain ⟨freshs, line, open', found, text⟩ := same
  cases takes_iff.mpr h with
  | @finish done blanks blocks tokens blank =>
    cases freshs
    rw [← List.append_nil blanks] at text
    obtain ⟨blanks', rest', rfl, indents, more⟩ := margins_fresh text blank (stops_nil _)
    cases more
    rw [List.append_nil]
    refine ⟨_, Takes.turn (.finish indents.blank'), closed_reindents zero ?_ open' found⟩
    exact line_pass line (by rw [count_blanks blank, count_blanks indents.blank'])
  | @stop done blocks tokens =>
    cases freshs
    cases margins_inside text
    exact ⟨_, Takes.turn .stop, closed_reindents zero line open' found⟩

theorem Reindents.fails {fault : Fault} (mono : StrictMono f) (zero : f 0 = 0)
    (run : Reaches (begin cs) x) (h : x.turn = .fails fault)
    (same : Reindents f (LineStartsAt cs) x x') :
    ∃ fault', x'.turn = .fails fault' ∧ fault'.cause = fault.cause ∧
      fault'.position.line = fault.position.line ∧ fault'.text = fault.text := by
  have last : ∀ y, ¬Goes x y := fun y step => nomatch h.symm.trans step
  have none := run.not_startsAt last
  obtain ⟨done', text', fresh', blocks', tokens'⟩ := x'
  obtain ⟨freshs, line, open', found, text⟩ := same
  cases takes_iff.mpr h with
  | @misfit done blanks rest c blocks tokens blank begins fits =>
    cases freshs
    cases open'
    obtain ⟨blanks', text', rfl, indents, more⟩ :=
      margins_fresh text blank (stops_cons.mpr begins.1)
    obtain ⟨rest', rfl, -⟩ := more.pass_row [c] (by simpa using begins.2.1.symm)
    have lines : (Position.start.after (done' ++ blanks')).line =
        (Position.start.after (done ++ blanks)).line :=
      line_pass line (by rw [count_blanks blank, count_blanks indents.blank'])
    have fits' := Layout.adjust_reindented mono zero (Position.start.after (done ++ blanks)).line
      (indentation blanks) blocks
    rw [fits, ← lines, ← indents.width trivial c rfl begins] at fits'
    exact ⟨_, Takes.turn (.misfit indents.blank' begins fits'), rfl, lines, rfl⟩
  | @broken done rest c e blocks tokens begins read =>
    cases freshs
    cases open'
    -- No line begins behind this place, so the two texts are the same from here on.
    have more := margins_inside text
    rw [← List.append_nil (c :: rest)] at more
    obtain ⟨rest', rfl, more'⟩ := more.pass fun k low _ => none k low
    cases more'
    rw [List.append_nil]
    exact ⟨_, Takes.turn (.broken begins read), rfl, line, rfl⟩

end Scanner

/-- Two readings agree up to columns and the widths of the layout marks. -/
def ReadAlike (f : Nat → Nat) (found found' : Except Fault (List Token)) : Prop :=
  (∃ ts ts', found = .ok ts ∧ found' = .ok ts' ∧ List.Forall₂ (Token.Reindents f) ts ts') ∨
    ∃ fault fault', found = .error fault ∧ found' = .error fault' ∧ fault'.cause = fault.cause ∧
      fault'.position.line = fault.position.line ∧ fault'.text = fault.text

namespace Scanner

variable {f : Nat → Nat} {cs cs' : List Char}

theorem Reindents.remaining (mono : StrictMono f) (zero : f 0 = 0) {x x' : Scanner}
    (run : Reaches (begin cs) x) (run' : Reaches (begin cs') x')
    (same : Reindents f (LineStartsAt cs) x x') : ReadAlike f x.remaining x'.remaining := by
  cases taken : x.turn with
  | ends ts =>
    obtain ⟨ts', taken', alike⟩ := same.ends zero taken
    exact .inl ⟨ts, ts', remaining_ends taken, remaining_ends taken', alike⟩
  | fails fault =>
    obtain ⟨fault', taken', alike⟩ := same.fails mono zero run taken
    exact .inr ⟨fault, fault', remaining_fails taken run.placed,
      remaining_fails taken' run'.placed, alike⟩
  | goes y =>
    obtain ⟨y', step', same'⟩ := Goes.reindents mono zero run taken same
    rw [Goes.remaining taken run.placed, Goes.remaining step' run'.placed]
    have := Goes.left_lt taken
    exact Reindents.remaining mono zero (.tail run taken) (.tail run' step') same'
termination_by x.left

theorem reindents_begin (h : Reindented f cs cs') :
    Reindents f (LineStartsAt cs) (begin cs) (begin cs') := by
  have starts : LineStartsAt cs 1 := Reaches.startsAt .refl rfl (.inl rfl)
  obtain ⟨blanks, blanks', rest, rest', split, split', indents, onward⟩ :=
    @onward_of_rows f (LineStartsAt cs) 1 cs cs' h.lines fun n row row' hr hr' =>
      Nat.add_comm n 1 ▸ h.rows n row row' hr hr'
  have margins : Margins f (LineStartsAt cs) 1 true (blanks ++ rest) (blanks' ++ rest') :=
    .fresh ⟨indents.blank, indents.blank', indents.stop, fun no => absurd trivial no,
      fun _ => indents.width starts⟩ onward
  rw [← split, ← split'] at margins
  exact ⟨rfl, rfl, rfl, .nil, margins⟩

end Scanner

theorem tokenize_reindented {f : Nat → Nat} (mono : StrictMono f) (zero : f 0 = 0)
    {source source' : String} (h : Reindented f source.toList source'.toList) :
    ReadAlike f (tokenize source) (tokenize source') := by
  rw [@Scanner.Reaches.tokenize source _ .refl, @Scanner.Reaches.tokenize source' _ .refl]
  exact Scanner.Reindents.remaining mono zero .refl .refl (Scanner.reindents_begin h)

end Miaou
