import Miaou.Proofs.Token.Found
import Miaou.Proofs.Token.Layout

/-!
Reading a script loses and invents no text. The script is cut into the spans of its tokens and
the gaps before them: what a span holds is read as its token alone, and a gap holds only blanks,
comments and whole lines of these.
-/

namespace Miaou

/-- Layout tokens other than line ends stand for no text. -/
def Token.ownsText (t : Token) : Bool :=
  match t.kind with
  | .layout .newline => true
  | .layout _ => false
  | _ => true

/-- A token with its text and the text passed over before it. -/
structure Span where
  gap : List Char
  text : List Char
  token : Token

namespace Span

open Piece

def chars (s : Span) : List Char := s.gap ++ s.text

def endsLine (s : Span) : Bool := s.token.kind = .layout .newline

/-- Lines without a token, up to the beginning of a line. -/
inductive IdleLines : List Char → Prop where
  | none : IdleLines []
  | more {lines line : List Char} (before : IdleLines lines) (idle : Remark line) :
      IdleLines (lines ++ line ++ ['\n'])

/-- The text passed over before a token or at the end: lines without a token, if a line begins
there, and a stretch of one line, which has a comment only if the line ends behind it. -/
def Gap (fresh ends : Bool) (gap : List Char) : Prop :=
  ∃ lines part, gap = lines ++ part ∧ IdleLines lines ∧ (lines ≠ [] → fresh = true) ∧
    if ends then Remark part else Blanks part

/-- Whether a line begins behind these spans. -/
def lineBegins (spans : List Span) : Bool := spans.getLast?.all endsLine

structure Fits (fresh : Bool) (done : List Char) (s : Span) : Prop where
  ne : s.text ≠ []
  gap : Gap fresh s.endsLine s.gap
  place : s.token.position = Position.start.after (done ++ s.gap)
  alone : if s.endsLine then s.text = ['\n'] else
    tokenize (String.ofList s.text) =
      .ok [⟨s.token.kind, s.token.payload, .start⟩, .eof (Position.start.after s.text)]

/-- Spans that follow one another behind the text `done`. -/
def Tiles : (fresh : Bool) → (done : List Char) → List Span → Prop
  | _, _, [] => True
  | fresh, done, s :: ss => s.Fits fresh done ∧ Tiles s.endsLine (done ++ s.chars) ss

theorem fits_of_tiles {fresh : Bool} {done : List Char} {before behind : List Span} {s : Span}
    (h : Tiles fresh done (before ++ s :: behind)) :
    s.Fits (if before = [] then fresh else lineBegins before)
      (done ++ before.flatMap chars) := by
  induction before generalizing fresh done with
  | nil => simpa using h.1
  | cons b bs ih =>
    have inner := ih h.2
    rw [if_neg (List.cons_ne_nil b bs), List.flatMap_cons, ← List.append_assoc]
    cases bs with
    | nil => simpa [lineBegins] using inner
    | cons d ds => simpa [lineBegins] using inner

def Pending (origin fresh : Bool) (pending : List Char) : Prop :=
  ∃ lines part, pending = lines ++ part ∧ IdleLines lines ∧ (lines ≠ [] → origin = true) ∧
    Blanks part ∧ (fresh = true → part = [] ∧ origin = true)

theorem pending_nil (fresh : Bool) : Pending fresh fresh [] :=
  ⟨[], [], rfl, .none, fun h => absurd rfl h, blanks_nil, fun h => ⟨rfl, h⟩⟩

theorem pending_idle {origin : Bool} {pending line : List Char} (h : Pending origin true pending)
    (idle : Remark line) : Pending origin true (pending ++ line ++ ['\n']) := by
  obtain ⟨lines, part, rfl, before, -, -, fresh⟩ := h
  obtain ⟨rfl, begins⟩ := fresh rfl
  rw [List.append_nil]
  exact ⟨_, [], (List.append_nil _).symm, .more before idle, fun _ => begins, blanks_nil,
    fun _ => ⟨rfl, begins⟩⟩

theorem pending_content {origin : Bool} {pending blanks : List Char}
    (h : Pending origin true pending) (blank : Blanks blanks) :
    Pending origin false (pending ++ blanks) := by
  obtain ⟨lines, part, rfl, before, origin, -, fresh⟩ := h
  obtain ⟨rfl, -⟩ := fresh rfl
  rw [List.append_nil]
  exact ⟨lines, blanks, rfl, before, origin, blank, fun same => nomatch same⟩

theorem gap_token {origin fresh : Bool} {pending blanks : List Char}
    (h : Pending origin fresh pending) (blank : Blanks blanks) :
    Gap origin false (pending ++ blanks) := by
  obtain ⟨lines, part, rfl, before, origin, inside, -⟩ := h
  refine ⟨lines, part ++ blanks, List.append_assoc .., before, origin, ?_⟩
  rw [if_neg (by decide)]
  intro c hc
  rcases List.mem_append.mp hc with hc | hc
  · exact inside c hc
  · exact blank c hc

theorem gap_end {origin fresh : Bool} {pending line : List Char}
    (h : Pending origin fresh pending) (idle : Remark line) :
    Gap origin true (pending ++ line) := by
  obtain ⟨lines, part, rfl, before, origin, inside, -⟩ := h
  refine ⟨lines, part ++ line, List.append_assoc .., before, origin, ?_⟩
  obtain ⟨blanks, note, rfl, blank, shape⟩ := idle
  rw [if_pos rfl]
  refine ⟨part ++ blanks, note, (List.append_assoc ..).symm, ?_, shape⟩
  intro c hc
  rcases List.mem_append.mp hc with hc | hc
  · exact inside c hc
  · exact blank c hc

theorem tokenize_lexeme {c : Char} {cs : List Char} {l : Lexeme} (begins : Begins c)
    (read : Lexeme.read c cs = .ok l) :
    tokenize (String.ofList ((c :: cs).take l.size)) =
      .ok [⟨l.kind, l.payload, .start⟩, .eof (Position.start.after ((c :: cs).take l.size))] := by
  have again := Lexeme.read_take read
  have text : (c :: cs).take l.size = c :: cs.take (l.size - 1) := by
    rw [← List.take_succ_cons, Nat.sub_add_cancel (Lexeme.read_size_pos read)]
  have whole : ((c :: cs).take l.size).drop l.size = [] := by
    rw [List.drop_eq_nil_iff]
    exact List.length_take_le ..
  rw [text] at whole ⊢
  generalize cs.take (l.size - 1) = rest at again whole
  have stop : Text.Stops Lexeme.isInline (c :: rest) := Text.stops_cons.mpr begins.1
  have bare := Text.takeWhile_run (fun x hx => nomatch hx : ∀ x ∈ [], _ = true) stop
  have body := Text.dropWhile_run (fun x hx => nomatch hx : ∀ x ∈ [], _ = true) stop
  rw [List.nil_append] at bare body
  have note : skipComment (c :: rest) = c :: rest := by
    unfold skipComment
    split
    · rename_i same
      exact absurd (List.cons.inj same).1 begins.2.2
    · rfl
  rw [tokenize, String.toList_ofList, ofScript,
    ofLine_content (by rw [body, note]) begins.2.1, bare, body,
    ofContent_token _ begins again, whole, ofContent_nil]
  rfl

theorem filter_adjust {line width : Nat} {blocks still : List Nat} {marks : List Token}
    (h : Layout.adjust line width blocks = some (marks, still)) :
    marks.filter Token.ownsText = [] := by
  rcases Layout.adjust_cases h with ⟨-, rfl, -⟩ | ⟨closed, -, -, -, rfl⟩
  · rfl
  · rw [List.filter_eq_nil_iff]
    intro t ht
    obtain ⟨w, -, rfl⟩ := List.mem_map.mp ht
    exact Bool.false_ne_true

theorem filter_finish (finish : Position) (blocks : List Nat) :
    (blocks.map (fun _ => Token.dedent 0 finish) ++ [Token.eof finish]).filter Token.ownsText =
      [] := by
  rw [List.filter_eq_nil_iff]
  intro t ht
  rcases List.mem_append.mp ht with ht | ht
  · obtain ⟨w, -, rfl⟩ := List.mem_map.mp ht
    exact Bool.false_ne_true
  · rw [List.mem_singleton.mp ht]
    exact Bool.false_ne_true

theorem ownsText_of_not_layout {t : Token} (h : t.kind.isLayout = false) :
    t.ownsText = true := by
  unfold Token.ownsText
  split
  · rfl
  · rename_i mark _ same
    rw [same] at h
    nomatch h
  · rfl

theorem filter_tokens {finish : Position} {blocks : List Nat} {pieces : List Piece}
    {ts : List Token} (h : Layout.tokens finish blocks pieces = .ok ts)
    (texts : ∀ t, .token t ∈ pieces → t.ownsText = true) :
    ts.filter Token.ownsText = pieces.filterMap token? := by
  induction pieces generalizing blocks ts with
  | nil =>
    cases h
    exact filter_finish ..
  | cons piece pieces ih =>
    have others : ∀ t, .token t ∈ pieces → t.ownsText = true :=
      fun t ht => texts t (List.mem_cons_of_mem _ ht)
    cases piece with
    | broken fault => cases h
    | token t =>
      obtain ⟨us, read, rfl⟩ := Layout.tokens_token h
      rw [List.filter_cons_of_pos (texts t List.mem_cons_self), ih read others]
      rfl
    | content width first =>
      obtain ⟨marks, still, us, met, read, rfl⟩ := Layout.tokens_content h
      rw [List.filter_append, filter_adjust met, List.nil_append, ih read others]
      rfl

/-- A reading behind `settled`, cut in two: what stands before the cut is shared out among the
tokens read there, with a gap in which nothing has been found yet, and from there on the rest of
the pieces is read. -/
def Splits (origin : Bool) (settled text : List Char) (before behind : List Piece) : Prop :=
  ∃ spans gap fresh rest, text = spans.flatMap chars ++ gap ++ rest ∧
    spans.map token = before.filterMap token? ∧ Tiles origin settled spans ∧
    Pending (if spans = [] then origin else lineBegins spans) fresh gap ∧
    Scan fresh (settled ++ (spans.flatMap chars ++ gap)) rest behind

theorem splits_here {origin fresh : Bool} {settled pending rest : List Char} {pieces : List Piece}
    (h : Scan fresh (settled ++ pending) rest pieces) (open' : Pending origin fresh pending) :
    Splits origin settled (pending ++ rest) [] pieces :=
  ⟨[], pending, fresh, rest, rfl, rfl, trivial, open', h⟩

theorem splits_cons {origin : Bool} {settled text : List Char} {before behind : List Piece}
    {s : Span} (fits : s.Fits origin settled)
    (more : Splits s.endsLine (settled ++ s.chars) text before behind) :
    Splits origin settled (s.chars ++ text) (.token s.token :: before) behind := by
  obtain ⟨spans, gap, fresh, rest, rfl, texts, tiles, open', scan⟩ := more
  refine ⟨s :: spans, gap, fresh, rest, by simp, ?_, ⟨fits, tiles⟩, ?_, ?_⟩
  · rw [List.map_cons, texts]
    rfl
  · cases spans with
    | nil => simpa [lineBegins] using open'
    | cons s ss => simpa [lineBegins] using open'
  · simpa using scan

theorem unbroken_tail {piece : Piece} {before behind : List Piece}
    (sound : behind = [] → ∀ fault, .broken fault ∉ piece :: before) :
    behind = [] → ∀ fault, .broken fault ∉ before :=
  fun none fault found => sound none fault (List.mem_cons_of_mem _ found)

/-- A reading behind the text `settled ++ pending`, where nothing in `pending` has a token, can be
cut between any two pieces. -/
theorem scan_splits {fresh : Bool} {done rest : List Char} {pieces before behind : List Piece}
    (h : Scan fresh done rest pieces) (cut : pieces = before ++ behind)
    (sound : behind = [] → ∀ fault, .broken fault ∉ before) (settled pending : List Char)
    (here : done = settled ++ pending) {origin : Bool} (open' : Pending origin fresh pending) :
    Splits origin settled (pending ++ rest) before behind := by
  -- A cut before the first piece is the reading itself; behind it, a token settles its own span
  -- and the text passed over before it, and a line with content only adds its blanks to that text.
  induction h generalizing before settled pending origin with
  | finish idle =>
    obtain ⟨rfl, rfl⟩ := List.append_eq_nil_iff.mp cut.symm
    subst here
    exact splits_here (.finish idle) open'
  | @idle done line rest pieces idle more ih =>
    subst here
    cases before with
    | nil =>
      cases cut
      exact splits_here (.idle idle more) open'
    | cons piece before =>
      have step := ih cut sound settled (pending ++ line ++ ['\n'])
        (by simp only [List.append_assoc]) (pending_idle open' idle)
      simpa using step
  | @content done blanks rest c pieces blank begins more ih =>
    subst here
    cases before with
    | nil =>
      cases cut
      exact splits_here (.content blank begins more) open'
    | cons piece before =>
      obtain ⟨rfl, rfl⟩ := List.cons.inj cut
      have step := ih rfl (unbroken_tail sound) settled (pending ++ blanks)
        (by simp only [List.append_assoc]) (pending_content open' blank)
      rw [List.append_assoc] at step
      exact step
  | @newline done line rest pieces idle more ih =>
    subst here
    cases before with
    | nil =>
      cases cut
      exact splits_here (.newline idle more) open'
    | cons piece before =>
      obtain ⟨rfl, rfl⟩ := List.cons.inj cut
      let first : Span := ⟨pending ++ line, ['\n'],
        .newline (Position.start.after (settled ++ pending ++ line))⟩
      have fits : first.Fits origin settled :=
        ⟨List.cons_ne_nil _ _, gap_end open' idle, by simp [first, Token.newline], rfl⟩
      have step := ih rfl (unbroken_tail sound) (settled ++ first.chars) [] (by simp [first, chars])
        (pending_nil true)
      simpa [first, chars] using splits_cons fits step
  | @token done blanks rest c l pieces blank begins read more ih =>
    subst here
    cases before with
    | nil =>
      cases cut
      exact splits_here (.token blank begins read more) open'
    | cons piece before =>
      obtain ⟨rfl, rfl⟩ := List.cons.inj cut
      let first : Span := ⟨pending ++ blanks, (c :: rest).take l.size,
        ⟨l.kind, l.payload, Position.start.after (settled ++ pending ++ blanks)⟩⟩
      have inside : first.endsLine = false := by
        have other := Lexeme.read_isLayout read
        refine decide_eq_false ?_
        intro same
        rw [show l.kind = .layout .newline from same] at other
        nomatch other
      have fits : first.Fits origin settled := by
        refine ⟨Lexeme.take_ne_nil read, ?_, by simp [first], ?_⟩
        · rw [inside]
          exact gap_token open' blank
        · rw [inside, if_neg (by decide)]
          exact tokenize_lexeme begins read
      have afresh : Pending first.endsLine false [] := by
        rw [inside]
        exact pending_nil false
      have step := ih rfl (unbroken_tail sound) (settled ++ first.chars) []
        (by simp [first, chars]) afresh
      simpa [first, chars] using splits_cons fits step
  | @broken done blanks rest c e blank begins read =>
    subst here
    cases before with
    | nil =>
      cases cut
      exact splits_here (.broken blank begins read) open'
    | cons piece before =>
      obtain ⟨rfl, ended⟩ := List.cons.inj cut
      have none := (List.append_eq_nil_iff.mp ended.symm).2
      exact absurd List.mem_cons_self (sound none _)

theorem gap_tail {origin fresh : Bool} {done rest gap : List Char} {pieces : List Piece}
    (h : Scan fresh done rest pieces) (none : pieces = []) (open' : Pending origin fresh gap) :
    Gap origin true (gap ++ rest) := by
  induction h generalizing gap with
  | finish idle => exact gap_end open' idle
  | idle idle more ih =>
    have step := ih none (pending_idle open' idle)
    simpa using step
  | _ => cases none

theorem scan_tiles {fresh : Bool} {done rest : List Char} {pieces : List Piece}
    (h : Scan fresh done rest pieces) (settled pending : List Char)
    (behind : done = settled ++ pending) {origin : Bool} (open' : Pending origin fresh pending)
    {finish : Position} {blocks : List Nat} {ts : List Token}
    (read : Layout.tokens finish blocks pieces = .ok ts) :
    ∃ spans tail, pending ++ rest = spans.flatMap chars ++ tail ∧
      spans.map token = ts.filter Token.ownsText ∧ Tiles origin settled spans ∧
      Gap (if spans = [] then origin else lineBegins spans) true tail := by
  have texts : ∀ t, .token t ∈ pieces → t.ownsText = true := by
    intro t ht
    rcases (scan_found h _ ht).kind with text | mark
    · exact ownsText_of_not_layout text
    · rw [Token.ownsText, mark]
  obtain ⟨spans, gap, fresh', rest', cut, same, tiles, open', ended⟩ :=
    scan_splits h (List.append_nil pieces).symm (fun _ => Layout.tokens_sound read) settled pending
      behind open'
  refine ⟨spans, gap ++ rest', ?_, ?_, tiles, gap_tail ended rfl open'⟩
  · rw [cut, List.append_assoc]
  · rw [same, filter_tokens read texts]

end Span

theorem tokenize_position_ne {source : String} {before between behind : List Token} {t u : Token}
    (h : tokenize source = .ok (before ++ t :: (between ++ u :: behind)))
    (first : t.ownsText = true) (second : u.ownsText = true) : t.position ≠ u.position := by
  obtain ⟨spans, tail, cut, texts, tiles, -⟩ :=
    Span.scan_tiles (Piece.scan_ofScript source.toList) [] [] rfl (Span.pending_nil true) h
  rw [List.filter_append, List.filter_cons_of_pos first, List.filter_append,
    List.filter_cons_of_pos second] at texts
  obtain ⟨sb, _, rfl, -, texts₁⟩ := List.map_eq_append_iff.mp texts
  obtain ⟨s, _, rfl, rfl, texts₂⟩ := List.map_eq_cons_iff.mp texts₁
  obtain ⟨sm, _, rfl, -, texts₃⟩ := List.map_eq_append_iff.mp texts₂
  obtain ⟨s', more, rfl, rfl, -⟩ := List.map_eq_cons_iff.mp texts₃
  have fits := Span.fits_of_tiles tiles
  have apart : sb ++ s :: (sm ++ s' :: more) = (sb ++ s :: sm) ++ s' :: more := by simp
  rw [apart] at tiles
  have fits' := Span.fits_of_tiles tiles
  rw [fits.place, fits'.place, List.nil_append, List.nil_append]
  intro same
  -- Both places are behind parts of the script, and only the second part has the text of `s`.
  have whole : sb.flatMap Span.chars ++ s.gap ++
      (s.text ++ (sm ++ s' :: more).flatMap Span.chars) =
      (sb ++ s :: sm).flatMap Span.chars ++ s'.gap ++
        (s'.text ++ more.flatMap Span.chars) := by simp [Span.chars]
  have lengths := congrArg List.length (Position.after_injective whole same)
  simp only [List.flatMap_append, List.flatMap_cons, Span.chars, List.length_append] at lengths
  have filled := List.length_pos_iff.mpr fits.ne
  omega

/-- The tokens of a script that own text share out the script: in their order, each has a text
that begins where the token is placed, and between these texts stand only gaps. The text of a
line end is one line feed, and any other text alone is read as its token alone. -/
theorem tokenize_spans {source : String} {ts : List Token} (h : tokenize source = .ok ts) :
    ∃ spans tail, source.toList = spans.flatMap Span.chars ++ tail ∧
      spans.map Span.token = ts.filter Token.ownsText ∧
      Span.Gap (Span.lineBegins spans) true tail ∧
      ∀ before s behind, spans = before ++ s :: behind →
        s.text ≠ [] ∧
        s.token.position.offset source.toList = (before.flatMap Span.chars ++ s.gap).length ∧
        Span.Gap (Span.lineBegins before) s.endsLine s.gap ∧
        if s.endsLine then s.text = ['\n'] else
          tokenize (String.ofList s.text) =
            .ok [⟨s.token.kind, s.token.payload, .start⟩, .eof (Position.start.after s.text)] := by
  obtain ⟨spans, tail, cut, texts, tiles, last⟩ :=
    Span.scan_tiles (Piece.scan_ofScript source.toList) [] [] rfl (Span.pending_nil true) h
  rw [List.nil_append] at cut
  refine ⟨spans, tail, cut, texts, ?_, ?_⟩
  · cases spans with
    | nil => exact last
    | cons s ss => simpa using last
  intro before s behind parts
  subst parts
  obtain ⟨ne, gap, place, alone⟩ := Span.fits_of_tiles tiles
  refine ⟨ne, ?_, ?_, alone⟩
  · rw [place, List.nil_append, cut, List.flatMap_append, List.flatMap_cons, Span.chars]
    simp only [List.append_assoc]
    rw [← List.append_assoc (before.flatMap Span.chars), Position.offset_after]
  · cases before with
    | nil => exact gap
    | cons b bs => simpa using gap

theorem tokenize_spans_comment :
    ∃ (ts : List Token) (spans : List Span) (tail : List Char),
      tokenize "a = 1 # b\n\n" = .ok ts ∧
      "a = 1 # b\n\n".toList = spans.flatMap Span.chars ++ tail ∧
      spans.map Span.token = ts.filter Token.ownsText := by
  have read : tokenize "a = 1 # b\n\n" =
      .ok [⟨.identifier, .str "a", ⟨1, 1⟩⟩, ⟨.symbol .assign, .str "=", ⟨1, 3⟩⟩,
        ⟨.number, .int 1, ⟨1, 5⟩⟩, .newline ⟨1, 10⟩, .eof ⟨3, 1⟩] := by decide +kernel
  obtain ⟨spans, tail, cut, texts, -⟩ := tokenize_spans read
  exact ⟨_, spans, tail, read, cut, texts⟩

end Miaou
