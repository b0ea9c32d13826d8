import Miaou.Proofs.Position
import Miaou.Proofs.Token.Lexeme
import Miaou.Token.Piece

/-!
Reading a script as a relation. `Scan fresh done rest pieces` says that the text `rest`, which
stands behind the text `done`, is read as `pieces`; `fresh` tells whether it stands at the
beginning of a line. Every step names the text it passes over, and a position is always the one
reached behind the text that is done, so properties of all tokens are proved by induction on it.
-/

namespace Miaou.Piece

open Text Lexeme

def Blanks (cs : List Char) : Prop := ∀ c ∈ cs, isInline c = true

theorem blanks_takeWhile (cs : List Char) : Blanks (cs.takeWhile isInline) :=
  fun _ => List.mem_takeWhile_imp

/-- A stretch of a line that holds no token: blanks and perhaps a comment. -/
def Remark (cs : List Char) : Prop :=
  ∃ blanks note, cs = blanks ++ note ∧ Blanks blanks ∧
    (note = [] ∨ ∃ words, note = '#' :: words ∧ '\n' ∉ words)

/-- A character that begins a token. -/
def Begins (c : Char) : Prop := isInline c = false ∧ c ≠ '\n' ∧ c ≠ '#'

inductive Scan : (fresh : Bool) → (done rest : List Char) → List Piece → Prop where
  | finish {fresh : Bool} {done tail : List Char} (idle : Remark tail) : Scan fresh done tail []
  | idle {done line rest : List Char} {pieces : List Piece} (idle : Remark line)
      (more : Scan true (done ++ line ++ ['\n']) rest pieces) :
      Scan true done (line ++ '\n' :: rest) pieces
  | content {done blanks rest : List Char} {c : Char} {pieces : List Piece}
      (blank : Blanks blanks) (begins : Begins c)
      (more : Scan false (done ++ blanks) (c :: rest) pieces) :
      Scan true done (blanks ++ c :: rest)
        (.content (indentation blanks) (Position.start.after (done ++ blanks)) :: pieces)
  | newline {done line rest : List Char} {pieces : List Piece} (idle : Remark line)
      (more : Scan true (done ++ line ++ ['\n']) rest pieces) :
      Scan false done (line ++ '\n' :: rest)
        (.token (.newline (Position.start.after (done ++ line))) :: pieces)
  | token {done blanks rest : List Char} {c : Char} {l : Lexeme} {pieces : List Piece}
      (blank : Blanks blanks) (begins : Begins c) (read : Lexeme.read c rest = .ok l)
      (more : Scan false (done ++ blanks ++ (c :: rest).take l.size) ((c :: rest).drop l.size)
        pieces) :
      Scan false done (blanks ++ c :: rest)
        (.token ⟨l.kind, l.payload, Position.start.after (done ++ blanks)⟩ :: pieces)
  | broken {done blanks rest : List Char} {c : Char} {e : Misreading}
      (blank : Blanks blanks) (begins : Begins c) (read : Lexeme.read c rest = .error e) :
      Scan false done (blanks ++ c :: rest)
        [.broken ⟨e.cause, Position.start.after (done ++ blanks), String.ofList e.text⟩]

theorem blanks_nil : Blanks [] := by
  intro c hc
  cases hc

theorem remark_nil : Remark [] := ⟨[], [], rfl, blanks_nil, .inl rfl⟩

theorem remark_of_blanks {cs : List Char} (h : Blanks cs) : Remark cs :=
  ⟨cs, [], by simp, h, .inl rfl⟩

theorem remark_comment {blanks words : List Char} (h : Blanks blanks) (line : '\n' ∉ words) :
    Remark (blanks ++ '#' :: words) := ⟨blanks, _, rfl, h, .inr ⟨words, rfl, line⟩⟩

theorem blanks_cons {c : Char} {cs : List Char} (hc : isInline c = true) (h : Blanks cs) :
    Blanks (c :: cs) := by
  intro d hd
  rcases List.mem_cons.mp hd with rfl | hd
  · exact hc
  · exact h d hd

theorem remark_cons {c : Char} {cs : List Char} (hc : isInline c = true) (h : Remark cs) :
    Remark (c :: cs) := by
  obtain ⟨blanks, note, rfl, blank, shape⟩ := h
  exact ⟨c :: blanks, note, rfl, blanks_cons hc blank, shape⟩

theorem newline_not_mem_blanks {cs : List Char} (h : Blanks cs) : '\n' ∉ cs :=
  fun hc => absurd (h _ hc) (by decide)

theorem newline_not_mem_remark {cs : List Char} (h : Remark cs) : '\n' ∉ cs := by
  obtain ⟨blanks, note, rfl, blank, rfl | ⟨words, rfl, line⟩⟩ := h
  · simpa using newline_not_mem_blanks blank
  · simp [newline_not_mem_blanks blank, line]

/-! The readings of a text, case by case -/

theorem ofLine_end {line : Nat} {cs : List Char} (h : skipComment (cs.dropWhile isInline) = []) :
    ofLine line cs = [] := by
  rw [ofLine]
  split
  · rfl
  · rename_i same
    rw [h] at same
    cases same

theorem ofLine_idle {line : Nat} {cs rest : List Char}
    (h : skipComment (cs.dropWhile isInline) = '\n' :: rest) :
    ofLine line cs = ofLine (line + 1) rest := by
  rw [ofLine]
  split
  · rename_i same
    rw [h] at same
    cases same
  · rename_i same
    rw [h] at same
    cases same
    rw [if_pos rfl]

theorem ofLine_content {line : Nat} {cs rest : List Char} {c : Char}
    (h : skipComment (cs.dropWhile isInline) = c :: rest) (hc : c ≠ '\n') :
    ofLine line cs =
      .content (indentation (cs.takeWhile isInline))
        (Position.after ⟨line, 1⟩ (cs.takeWhile isInline)) ::
        ofContent (Position.after ⟨line, 1⟩ (cs.takeWhile isInline)) (cs.dropWhile isInline) := by
  rw [ofLine]
  split
  · rename_i same
    rw [h] at same
    cases same
  · rename_i same
    rw [h] at same
    cases same
    rw [if_neg hc]

theorem skipComment_begins {c : Char} (begins : Begins c) (rest : List Char) :
    skipComment (c :: rest) = c :: rest := by
  rw [skipComment]
  rintro cs ⟨⟩
  exact begins.2.2 rfl

theorem ofLine_found {line : Nat} {cs rest : List Char} {c : Char}
    (found : cs.dropWhile isInline = c :: rest) (begins : Begins c) :
    ofLine line cs =
      .content (indentation (cs.takeWhile isInline))
        (Position.after ⟨line, 1⟩ (cs.takeWhile isInline)) ::
        ofContent (Position.after ⟨line, 1⟩ (cs.takeWhile isInline)) (c :: rest) := by
  have closed : skipComment (cs.dropWhile isInline) = c :: rest := by
    rw [found, skipComment_begins begins]
  rw [ofLine_content closed begins.2.1, found]

@[simp] theorem ofContent_nil (p : Position) : ofContent p [] = [] := by
  rw [ofContent]

@[simp] theorem ofContent_newline (p : Position) (rest : List Char) :
    ofContent p ('\n' :: rest) = .token (.newline p) :: ofLine (p.line + 1) rest := by
  rw [ofContent, if_pos rfl]

theorem ofContent_blank (p : Position) {c : Char} (hc : isInline c = true) (rest : List Char) :
    ofContent p (c :: rest) = ofContent (p.next c) rest := by
  have other : c ≠ '\n' := by rintro rfl; exact absurd hc (by decide)
  rw [ofContent, if_neg other, if_pos hc]

@[simp] theorem ofContent_comment (p : Position) (rest : List Char) :
    ofContent p ('#' :: rest) =
      ofContent (p.after ('#' :: comment rest)) (rest.dropWhile (· ≠ '\n')) := by
  rw [ofContent, if_neg (by decide), if_neg (by decide), if_pos rfl]

theorem ofContent_token (p : Position) {c : Char} {rest : List Char} {l : Lexeme}
    (begins : Begins c) (read : Lexeme.read c rest = .ok l) :
    ofContent p (c :: rest) =
      .token ⟨l.kind, l.payload, p⟩ ::
        ofContent (p.after ((c :: rest).take l.size)) ((c :: rest).drop l.size) := by
  obtain ⟨inline, newline, note⟩ := begins
  rw [ofContent, if_neg newline, if_neg (by simp [inline]), if_neg note]
  split
  · rename_i same
    rw [read] at same
    cases same
  · rename_i same
    rw [read] at same
    cases same
    rfl

theorem ofContent_broken (p : Position) {c : Char} {rest : List Char} {e : Misreading}
    (begins : Begins c) (read : Lexeme.read c rest = .error e) :
    ofContent p (c :: rest) = [.broken ⟨e.cause, p, String.ofList e.text⟩] := by
  obtain ⟨inline, newline, note⟩ := begins
  rw [ofContent, if_neg newline, if_neg (by simp [inline]), if_neg note]
  split
  · rename_i same
    rw [read] at same
    cases same
    rfl
  · rename_i same
    rw [read] at same
    cases same
/-! Steps inside a line -/

theorem Scan.blank {done rest : List Char} {c : Char} {pieces : List Piece}
    (hc : isInline c = true) (h : Scan false (done ++ [c]) rest pieces) :
    Scan false done (c :: rest) pieces := by
  cases h with
  | finish idle => exact .finish (remark_cons hc idle)
  | newline idle more =>
    have step := @Scan.newline done _ _ _ (remark_cons hc idle) (by simpa using more)
    simpa using step
  | token blank begins read more =>
    have step := @Scan.token done _ _ _ _ _ (blanks_cons hc blank) begins read (by simpa using more)
    simpa using step
  | broken blank begins read =>
    have step := @Scan.broken done _ _ _ _ (blanks_cons hc blank) begins read
    simpa using step

theorem blanks_eq_nil {blanks rest more : List Char} {c : Char} (h : Blanks blanks)
    (same : '\n' :: rest = blanks ++ c :: more) : blanks = [] ∧ c = '\n' ∧ more = rest := by
  cases blanks with
  | nil =>
    cases same
    exact ⟨rfl, rfl, rfl⟩
  | cons d ds =>
    cases same
    exact absurd (h '\n' (by simp)) (by decide)

theorem Scan.at_newline {done rest : List Char} {pieces : List Piece}
    (h : Scan false done ('\n' :: rest) pieces) :
    ∃ more, pieces = .token (.newline (Position.start.after done)) :: more ∧
      Scan true (done ++ ['\n']) rest more := by
  generalize same : '\n' :: rest = cs at h
  cases h with
  | finish idle => exact absurd (same ▸ List.mem_cons_self) (newline_not_mem_remark idle)
  | @newline _ line _ pieces idle more =>
    cases line with
    | nil =>
      cases same
      exact ⟨pieces, by simp, by simpa using more⟩
    | cons d ds =>
      cases same
      exact absurd List.mem_cons_self (newline_not_mem_remark idle)
  | token blank begins _ _ => exact absurd (blanks_eq_nil blank same).2.1 begins.2.1
  | broken blank begins _ => exact absurd (blanks_eq_nil blank same).2.1 begins.2.1

theorem Scan.at_end {fresh : Bool} {done : List Char} {pieces : List Piece}
    (h : Scan fresh done [] pieces) : pieces = [] := by
  generalize same : [] = cs at h
  cases h with
  | finish => rfl
  | _ => simp at same

theorem Scan.comment {done words rest : List Char} {pieces : List Piece} (line : '\n' ∉ words)
    (stop : Stops (· ≠ '\n') rest) (h : Scan false (done ++ '#' :: words) rest pieces) :
    Scan false done ('#' :: words ++ rest) pieces := by
  have note := remark_comment blanks_nil line
  rw [List.nil_append] at note
  cases rest with
  | nil =>
    rw [h.at_end, List.append_nil]
    exact .finish note
  | cons c rest =>
    have first : c = '\n' := by simpa using stops_cons.mp stop
    subst first
    obtain ⟨more, rfl, scan⟩ := h.at_newline
    exact .newline note scan

theorem inside_line {words : List Char} (plain : '\n' ∉ words) :
    ∀ c ∈ words, decide (c ≠ '\n') = true :=
  fun _ hc => decide_eq_true fun same => plain (same ▸ hc)

theorem skipComment_eq {body after : List Char} (h : skipComment body = after) :
    body = after ∧ (∀ c ∈ body.head?, c ≠ '#') ∨
      ∃ words, body = '#' :: words ++ after ∧ '\n' ∉ words ∧ Stops (· ≠ '\n') after := by
  unfold skipComment at h
  split at h
  · rename_i cs
    obtain ⟨words, rest, rfl, line, stop⟩ := exists_row cs
    rw [dropWhile_run (inside_line line) stop] at h
    exact .inr ⟨words, by rw [h]; rfl, line, h ▸ stop⟩
  · rename_i other
    refine .inl ⟨h, ?_⟩
    intro c hc hash
    subst hash
    cases body with
    | nil => cases hc
    | cons d ds =>
      cases hc
      exact other ds rfl

theorem remark_of_skipComment {blanks body after : List Char} (blank : Blanks blanks)
    (h : skipComment body = after) :
    ∃ line, blanks ++ body = line ++ after ∧ Remark line := by
  rcases skipComment_eq h with ⟨rfl, -⟩ | ⟨words, rfl, line, -⟩
  · exact ⟨blanks, rfl, remark_of_blanks blank⟩
  · exact ⟨blanks ++ '#' :: words, by simp, remark_comment blank line⟩

/-- What is to be shown of the readings of texts, from the beginning of a line and from inside
one: each way to read on has a field. -/
structure Readings (atLine : Nat → List Char → Prop) (inside : Position → List Char → Prop) :
    Prop where
  finish {line : Nat} {cs : List Char} (closed : skipComment (cs.dropWhile isInline) = []) :
    atLine line cs
  idle {line : Nat} {cs rest : List Char}
    (closed : skipComment (cs.dropWhile isInline) = '\n' :: rest) (next : atLine (line + 1) rest) :
    atLine line cs
  content {line : Nat} {cs rest : List Char} {c : Char}
    (found : cs.dropWhile isInline = c :: rest) (begins : Begins c)
    (next : inside (Position.after ⟨line, 1⟩ (cs.takeWhile isInline)) (c :: rest)) :
    atLine line cs
  ended (p : Position) : inside p []
  newline {p : Position} {cs : List Char} (next : atLine (p.line + 1) cs) : inside p ('\n' :: cs)
  blank {p : Position} {c : Char} {cs : List Char} (hc : isInline c = true)
    (next : inside (p.next c) cs) : inside p (c :: cs)
  note {p : Position} {cs : List Char}
    (next : inside (p.after ('#' :: comment cs)) (cs.dropWhile (· ≠ '\n'))) : inside p ('#' :: cs)
  broken {p : Position} {c : Char} {cs : List Char} {e : Misreading} (begins : Begins c)
    (read : Lexeme.read c cs = .error e) : inside p (c :: cs)
  token {p : Position} {c : Char} {cs : List Char} {l : Lexeme} (begins : Begins c)
    (read : Lexeme.read c cs = .ok l)
    (next : inside (p.after ((c :: cs).take l.size)) ((c :: cs).drop l.size)) : inside p (c :: cs)

theorem begins_of_skipComment {cs rest : List Char} {c : Char}
    (h : skipComment (cs.dropWhile isInline) = c :: rest) (hc : c ≠ '\n') :
    cs.dropWhile isInline = c :: rest ∧ Begins c := by
  rcases skipComment_eq h with ⟨same, note⟩ | ⟨words, -, -, stop⟩
  · have inline := stops_dropWhile isInline cs
    rw [same] at inline note
    exact ⟨same, stops_cons.mp inline, hc, note c (by simp)⟩
  · exact absurd (by simpa using stops_cons.mp stop) hc

theorem Readings.all {atLine : Nat → List Char → Prop} {inside : Position → List Char → Prop}
    (h : Readings atLine inside) :
    (∀ line cs, atLine line cs) ∧ ∀ p cs, inside p cs := by
  refine ofLine.mutual_induct atLine inside ?_ ?_ ?_ ?_ ?_ ?_ ?_ ?_ ?_
  · intro line cs body closed
    exact h.finish closed
  · intro line cs body rest closed next
    exact h.idle closed next
  · intro line cs blanks body c rest closed hc first next
    obtain ⟨found, begins⟩ := begins_of_skipComment closed hc
    exact h.content found begins (found ▸ next)
  · exact h.ended
  · exact fun p cs next => h.newline next
  · exact fun p c cs _ hc next => h.blank hc next
  · exact fun p cs _ _ next => h.note next
  · exact fun p c cs newline inline note e read =>
      h.broken ⟨by simpa using inline, newline, note⟩ read
  · exact fun p c cs newline inline note l read next =>
      h.token ⟨by simpa using inline, newline, note⟩ read next

/-- Reading a text is a scan of it, from the beginning of a line as well as from inside one. -/
theorem scan_readings :
    Readings
      (fun line cs => ∀ done, Position.start.after done = ⟨line, 1⟩ →
        Scan true done cs (ofLine line cs))
      (fun p cs => ∀ done, Position.start.after done = p →
        Scan false done cs (ofContent p cs)) where
  finish {line cs} closed done _ := by
    rw [ofLine_end closed]
    obtain ⟨tail, same, idle⟩ := remark_of_skipComment (blanks_takeWhile cs) closed
    rw [List.takeWhile_append_dropWhile, List.append_nil] at same
    exact same ▸ .finish idle
  idle {line cs rest} closed ih done start := by
    rw [ofLine_idle closed]
    obtain ⟨before, same, idle⟩ := remark_of_skipComment (blanks_takeWhile cs) closed
    rw [List.takeWhile_append_dropWhile] at same
    rw [same]
    refine .idle idle (ih _ ?_)
    rw [Position.after_newline, Position.after_append,
      Position.after_line _ (newline_not_mem_remark idle), start]
  content {line cs rest c} found begins ih done start := by
    have step := Scan.content (blanks_takeWhile cs) begins (ih (done ++ cs.takeWhile isInline) (by
      rw [Position.after_append, start]))
    rw [← found, List.takeWhile_append_dropWhile, found, Position.after_append, start] at step
    rwa [ofLine_found found begins]
  ended p done _ := by
    rw [ofContent_nil]
    exact .finish remark_nil
  newline {p cs} ih done start := by
    rw [ofContent_newline]
    have step := Scan.newline remark_nil (ih (done ++ [] ++ ['\n']) (by
      rw [List.append_nil, Position.after_newline, start]))
    rwa [List.append_nil, start] at step
  blank {p c cs} hc ih done start := by
    rw [ofContent_blank p hc]
    exact .blank hc (ih _ (by rw [Position.after_append, start]; rfl))
  note {p cs} ih done start := by
    rw [ofContent_comment]
    have line : '\n' ∉ comment cs := fun hc => by simpa using List.mem_takeWhile_imp hc
    have step := Scan.comment line (stops_dropWhile _ cs) (ih _ (by
      rw [Position.after_append, start]))
    rwa [List.cons_append, comment, List.takeWhile_append_dropWhile] at step
  broken {p c cs e} begins read done start := by
    rw [ofContent_broken p begins read]
    have step := @Scan.broken done _ _ _ _ blanks_nil begins read
    rwa [List.append_nil, start] at step
  token {p c cs l} begins read ih done start := by
    rw [ofContent_token p begins read]
    have step := @Scan.token done _ _ _ _ _ blanks_nil begins read (ih _ (by
      rw [List.append_nil, Position.after_append, start]))
    rwa [List.append_nil, start] at step

theorem scan_ofScript (cs : List Char) : Scan true [] cs (ofScript cs) :=
  scan_readings.all.1 1 cs [] rfl

/-! A text has one reading -/

theorem skipComment_remark {line rest : List Char} (idle : Remark line)
    (stop : Stops (· ≠ '\n') rest) : skipComment ((line ++ rest).dropWhile isInline) = rest := by
  obtain ⟨blanks, note, rfl, blank, rfl | ⟨words, rfl, plain⟩⟩ := idle
  · rw [List.append_nil]
    cases rest with
    | nil => rw [dropWhile_run blank (stops_nil _), skipComment]; simp
    | cons c rest =>
      have feed : c = '\n' := by simpa using stops_cons.mp stop
      subst feed
      rw [dropWhile_run blank (stops_cons.mpr (by decide)), skipComment]
      simp
  · rw [List.append_assoc, List.cons_append, dropWhile_run blank (stops_cons.mpr (by decide)),
      skipComment, dropWhile_run (inside_line plain) stop]

theorem ofLine_remark_end {line : Nat} {cs : List Char} (idle : Remark cs) :
    ofLine line cs = [] := by
  have skipped := skipComment_remark idle (stops_nil _)
  rw [List.append_nil] at skipped
  exact ofLine_end skipped

theorem ofLine_remark {line : Nat} {cs : List Char} (idle : Remark cs) (rest : List Char) :
    ofLine line (cs ++ '\n' :: rest) = ofLine (line + 1) rest :=
  ofLine_idle (skipComment_remark idle (by simp))

theorem ofLine_blanks (line : Nat) {blanks : List Char} {c : Char} (blank : Blanks blanks)
    (begins : Begins c) (rest : List Char) :
    ofLine line (blanks ++ c :: rest) =
      .content (indentation blanks) (Position.after ⟨line, 1⟩ blanks) ::
        ofContent (Position.after ⟨line, 1⟩ blanks) (c :: rest) := by
  have stop : Stops isInline (c :: rest) := stops_cons.mpr begins.1
  rw [ofLine_found (dropWhile_run blank stop) begins, takeWhile_run blank stop]

theorem ofContent_blanks (p : Position) {blanks : List Char} (blank : Blanks blanks)
    (rest : List Char) : ofContent p (blanks ++ rest) = ofContent (p.after blanks) rest := by
  induction blanks generalizing p with
  | nil => rfl
  | cons c cs ih =>
    rw [List.cons_append, ofContent_blank p (blank c List.mem_cons_self), Position.after_cons]
    exact ih (p.next c) fun d hd => blank d (List.mem_cons_of_mem _ hd)

theorem ofContent_note (p : Position) {words rest : List Char} (plain : '\n' ∉ words)
    (stop : Stops (· ≠ '\n') rest) :
    ofContent p ('#' :: words ++ rest) = ofContent (p.after ('#' :: words)) rest := by
  rw [List.cons_append, ofContent_comment, comment, takeWhile_run (inside_line plain) stop,
    dropWhile_run (inside_line plain) stop]

theorem ofContent_remark (p : Position) {line rest : List Char} (idle : Remark line)
    (stop : Stops (· ≠ '\n') rest) :
    ofContent p (line ++ rest) = ofContent (p.after line) rest := by
  obtain ⟨blanks, note, rfl, blank, rfl | ⟨words, rfl, plain⟩⟩ := idle
  · rw [List.append_nil, ofContent_blanks p blank]
  · rw [List.append_assoc, ofContent_blanks p blank, ofContent_note _ plain stop,
      Position.after_append]

theorem Scan.pieces_eq {fresh : Bool} {done rest : List Char} {pieces : List Piece}
    (h : Scan fresh done rest pieces) :
    (fresh = true → (Position.start.after done).column = 1 →
      pieces = ofLine (Position.start.after done).line rest) ∧
    (fresh = false → pieces = ofContent (Position.start.after done) rest) := by
  induction h with
  | @finish fresh done tail idle =>
    refine ⟨fun _ _ => (ofLine_remark_end idle).symm, fun _ => ?_⟩
    have read := ofContent_remark (Position.start.after done) idle (stops_nil _)
    rw [List.append_nil, ofContent_nil] at read
    exact read.symm
  | @idle done line rest pieces idle more ih =>
    refine ⟨fun _ _ => ?_, nofun⟩
    have next := Position.after_newline (done ++ line)
    rw [ih.1 rfl (by rw [next]), next, ofLine_remark idle, Position.after_append,
      Position.after_line _ (newline_not_mem_remark idle)]
  | @content done blanks rest c pieces blank begins more ih =>
    refine ⟨fun _ first => ?_, nofun⟩
    have here : Position.start.after done = ⟨(Position.start.after done).line, 1⟩ := by
      rw [← first]
    rw [ih.2 rfl, ofLine_blanks _ blank begins, ← here, Position.after_append]
  | @newline done line rest pieces idle more ih =>
    refine ⟨nofun, fun _ => ?_⟩
    have next := Position.after_newline (done ++ line)
    rw [ih.1 rfl (by rw [next]), next,
      ofContent_remark _ idle (by simp), ofContent_newline,
      Position.after_append]
  | @token done blanks rest c l pieces blank begins read more ih =>
    refine ⟨nofun, fun _ => ?_⟩
    simp [ih.2 rfl, ofContent_blanks _ blank, ofContent_token _ begins read]
  | @broken done blanks rest c e blank begins read =>
    refine ⟨nofun, fun _ => ?_⟩
    rw [ofContent_blanks _ blank, ofContent_broken _ begins read, Position.after_append]

theorem Scan.pieces_ofScript {cs : List Char} {pieces : List Piece} (h : Scan true [] cs pieces) :
    pieces = ofScript cs := h.pieces_eq.1 rfl rfl

end Miaou.Piece
