import Miaou.Proofs.Token.Line

/-!
Indented lines. Each block is indented by four spaces more than the one around it. `Reads` says
what lines inside some blocks are read as, whatever line comes behind them that lies no deeper, so
that lines and blocks are put together one after the other and one inside the other.
-/

namespace Miaou

def Token.mark (mark : Layout) : Token := ⟨.layout mark, .none, .start⟩

namespace Piece

open Text Lexeme

/-- A stretch of a line that is read as `gs`, whatever follows that does not go on with a word or a
number. -/
structure Stretch (cs : List Char) (gs : List Token) : Prop where
  begins : ∃ c ∈ cs.head?, Begins c
  yields : ∀ rest, Ends rest → Yields cs gs rest

theorem ends_newline (rest : List Char) : Ends ('\n' :: rest) :=
  ends_cons (by decide) (by decide) rest

theorem Stands.stretch {cs : List Char} {t : Token} (h : Stands cs t) : Stretch cs [t] :=
  ⟨h.begins, h.yields⟩

namespace Stretch

variable {cs ds : List Char} {gs hs : List Token}

theorem append (h : Stretch cs gs) (more : ∀ rest, Ends rest → Yields ds hs rest)
    (ends : ∀ rest, Ends rest → Ends (ds ++ rest)) : Stretch (cs ++ ds) (gs ++ hs) where
  begins := by
    obtain ⟨c, head, begins⟩ := h.begins
    cases cs with
    | nil => cases head
    | cons d cs => exact ⟨c, head, begins⟩
  yields rest done := yields_append (h.yields _ (ends rest done)) (more rest done)

theorem space (h : Stretch cs gs) (h' : Stretch ds hs) : Stretch (cs ++ ' ' :: ds) (gs ++ hs) :=
  h.append (fun rest done => yields_append (yields_blank _) (h'.yields rest done))
    fun _ _ => ends_cons (by decide) (by decide) _

theorem sign (h : Stretch cs gs) (s : Symbol) (simple : ∀ c, grows s c = false)
    (ends : ∀ rest, Ends (s.text.toList ++ rest)) :
    Stretch (cs ++ s.text.toList) (gs ++ [.sign s]) :=
  h.append (fun _ _ => yields_symbol s fun c _ => simple c) fun rest _ => ends rest

theorem colon (h : Stretch cs gs) : Stretch (cs ++ [':']) (gs ++ [.sign .colon]) :=
  h.sign .colon (fun _ => rfl) fun rest => ends_cons (by decide) (by decide) rest

end Stretch

theorem fused?_space {first second : List Char} {keyword : Keyword} {spelling : String}
    (found : compound? (lowered first) = some (lowered second, keyword, spelling))
    (word : isWord second = true) {rest : List Char} (stop : Stops continuesWord rest) :
    fused? first (' ' :: (second ++ rest)) =
      some ⟨.keyword keyword, .str spelling, first.length + 1 + second.length⟩ := by
  have next : Stops isInline (second ++ rest) := by
    obtain ⟨c, head, starts⟩ := startsWord_of_isWord word
    intro d hd
    cases Option.mem_unique hd (mem_head?_append head rest)
    exact isInline_of_continuesWord (continuesWord_of_startsWord starts)
  have blank : ∀ c ∈ [' '], isInline c = true := List.forall_mem_singleton.mpr (by decide)
  have read := @fused?_run first [' '] second rest blank next (continuesWord_of_isWord word) stop
  simpa [found] using read

theorem stretch_compound {first second : List Char} {kind : Kind} {keyword : Keyword}
    {spelling : String} (word : isWord first = true) (word' : isWord second = true)
    (reserved : Kind.ofWord? (lowered first) = some kind) (other : kind ≠ .boolean)
    (found : compound? (lowered first) = some (lowered second, keyword, spelling)) :
    Stretch (first ++ ' ' :: second) [⟨.keyword keyword, .str spelling, .start⟩] := by
  have inside := continuesWord_of_isWord word
  obtain ⟨c, head, starts⟩ := startsWord_of_isWord word
  cases first with
  | nil => cases head
  | cons d ds =>
    cases head
    refine ⟨⟨c, rfl, begins_of_startsWord starts⟩, fun rest ends => ?_⟩
    have stop : Stops continuesWord (' ' :: (second ++ rest)) := stops_cons.mpr (by decide)
    have run := readWord_run inside stop
    rw [ofWord_fused reserved other (fused?_space found word' ends.1)] at run
    have read : Lexeme.read c (ds ++ (' ' :: second ++ rest)) = _ :=
      (read_word starts _).trans (congrArg Except.ok run)
    rw [← List.append_assoc] at read
    refine yields_lexeme (begins_of_startsWord starts) read ?_
    simp only [List.length_append, List.length_cons]
    omega

end Piece

namespace Layout

open Piece

def steps : Nat → List Nat
  | 0 => []
  | depth + 1 => 4 * (depth + 1) :: steps depth

@[simp] theorem headD_steps (depth : Nat) : (steps depth).headD 0 = 4 * depth := by
  cases depth <;> rfl

/-- The text begins with a line of content inside `depth` blocks. -/
def Starts (depth : Nat) (cs : List Char) : Prop :=
  ∃ c more, cs = List.replicate (4 * depth) ' ' ++ c :: more ∧ Begins c

def Under (depth : Nat) (cs : List Char) : Prop := ∃ d ≤ depth, Starts d cs

theorem Starts.append {depth : Nat} {cs : List Char} (h : Starts depth cs) (ds : List Char) :
    Starts depth (cs ++ ds) := by
  obtain ⟨c, more, rfl, begins⟩ := h
  exact ⟨c, more ++ ds, by simp, begins⟩

theorem Starts.under {depth : Nat} {cs : List Char} (h : Starts depth cs) : Under depth cs :=
  ⟨depth, Nat.le_refl _, h⟩

theorem Under.mono {depth depth' : Nat} {cs : List Char} (h : Under depth cs)
    (le : depth ≤ depth') : Under depth' cs := by
  obtain ⟨d, le', starts⟩ := h
  exact ⟨d, Nat.le_trans le' le, starts⟩

theorem Starts.ofLine {depth : Nat} {cs : List Char} (h : Starts depth cs) (line : Nat) :
    ∃ first pieces, ofLine line cs = .content (4 * depth) first :: pieces := by
  obtain ⟨c, more, rfl, begins⟩ := h
  exact ⟨_, _, ofLine_begins begins more line _⟩

/-! Marks before a line -/

theorem adjust_steps_open (line depth : Nat) :
    adjust line (4 * (depth + 1)) (steps depth) =
      some ([.indent (4 * (depth + 1)) line], steps (depth + 1)) := by
  rw [adjust, headD_steps, if_pos (by omega)]
  rfl

theorem adjust_steps (line depth : Nat) :
    adjust line (4 * depth) (steps depth) = some ([], steps depth) := by
  have inside : (steps depth).takeWhile (4 * depth < ·) = [] := by
    cases depth <;> simp [steps]
  have kept : (steps depth).dropWhile (4 * depth < ·) = steps depth := by
    cases depth <;> simp [steps]
  rw [adjust, headD_steps, if_neg (Nat.lt_irrefl _)]
  dsimp only
  rw [inside, kept, headD_steps, if_pos rfl]
  rfl

theorem adjust_steps_close {line d depth : Nat} (le : d ≤ depth) :
    adjust line (4 * d) (steps (depth + 1)) =
      (adjust line (4 * d) (steps depth)).map fun found =>
        (.dedent (4 * d) ⟨line, 1⟩ :: found.1, found.2) := by
  have outside : ¬4 * (depth + 1) < 4 * d := by omega
  have outside' : ¬4 * depth < 4 * d := by omega
  have wider : decide (4 * d < 4 * (depth + 1)) = true := decide_eq_true (by omega)
  have taken : (steps (depth + 1)).takeWhile (4 * d < ·) =
      4 * (depth + 1) :: (steps depth).takeWhile (4 * d < ·) := List.takeWhile_cons_of_pos wider
  have left : (steps (depth + 1)).dropWhile (4 * d < ·) =
      (steps depth).dropWhile (4 * d < ·) := List.dropWhile_cons_of_pos wider
  rw [adjust, adjust, headD_steps, headD_steps, if_neg outside, if_neg outside', taken, left]
  dsimp only
  split <;> rfl

@[simp] theorem map_map {α β γ ε : Type} (x : Except ε α) (f : α → β) (g : β → γ) :
    (x.map f).map g = x.map fun a => g (f a) := by
  cases x <;> rfl

theorem map_nil_append {α ε : Type} (x : Except ε (List α)) : x.map ([] ++ ·) = x := by
  cases x <;> rfl

variable {finish : Position} {pieces : List Piece} {first : Position}

theorem tokens_steps (depth : Nat) :
    tokens finish (steps depth) (.content (4 * depth) first :: pieces) =
      tokens finish (steps depth) pieces := by
  rw [tokens, adjust_steps]
  exact map_nil_append _

theorem tokens_steps_open (depth : Nat) :
    tokens finish (steps depth) (.content (4 * (depth + 1)) first :: pieces) =
      (tokens finish (steps (depth + 1)) pieces).map
        (.indent (4 * (depth + 1)) first.line :: ·) := by
  rw [tokens, adjust_steps_open]
  rfl

theorem tokens_steps_close {d depth : Nat} (le : d ≤ depth) :
    tokens finish (steps (depth + 1)) (.content (4 * d) first :: pieces) =
      (tokens finish (steps depth) (.content (4 * d) first :: pieces)).map
        (.dedent (4 * d) ⟨first.line, 1⟩ :: ·) := by
  rw [tokens, tokens, adjust_steps_close le]
  cases adjust first.line (4 * d) (steps depth) with
  | none => rfl
  | some found =>
    exact (map_map (tokens finish found.2 pieces) (found.1 ++ ·)
      (.dedent (4 * d) ⟨first.line, 1⟩ :: ·)).symm

/-! Lines and blocks -/

/-- From the beginning of a line, inside `depth` blocks, the text is read as `gs`, and what comes
behind is read on. -/
def Goes (depth : Nat) (cs rest : List Char) (gs : List Token) : Prop :=
  ∀ finish line, ∃ line' ts, ts.map Token.unplaced = gs ∧
    tokens finish (steps depth) (ofLine line (cs ++ rest)) =
      (tokens finish (steps depth) (ofLine line' rest)).map (ts ++ ·)

theorem Goes.append {depth : Nat} {cs ds rest : List Char} {gs hs : List Token}
    (first : Goes depth cs (ds ++ rest) gs) (second : Goes depth ds rest hs) :
    Goes depth (cs ++ ds) rest (gs ++ hs) := by
  intro finish line
  obtain ⟨line', ts, rfl, read⟩ := first finish line
  obtain ⟨line'', us, rfl, read'⟩ := second finish line'
  refine ⟨line'', ts ++ us, List.map_append, ?_⟩
  rw [List.append_assoc, read, read', map_map]
  simp only [List.append_assoc]

theorem goes_block {depth : Nat} {cs rest : List Char} {gs : List Token}
    (starts : Starts (depth + 1) cs) (under : Under depth rest)
    (h : Goes (depth + 1) cs rest gs) :
    Goes depth cs rest (.mark .indent :: gs ++ [.mark .dedent]) := by
  intro finish line
  obtain ⟨line', ts, rfl, read⟩ := h finish line
  obtain ⟨first, pieces, content⟩ := (starts.append rest).ofLine line
  obtain ⟨d, le, starts'⟩ := under
  obtain ⟨first', pieces', content'⟩ := starts'.ofLine line'
  rw [content, tokens_steps, content', tokens_steps_close le] at read
  refine ⟨line', .indent (4 * (depth + 1)) first.line ::
    (ts ++ [.dedent (4 * d) ⟨first'.line, 1⟩]), by simp; exact ⟨rfl, rfl⟩, ?_⟩
  rw [content, tokens_steps_open, read, content', map_map, map_map]
  simp

/-- The lines are read as `gs`, whatever comes behind them that lies no deeper. -/
def Reads (depth : Nat) (cs : List Char) (gs : List Token) : Prop :=
  ∀ rest, Under depth rest → Under depth (cs ++ rest) ∧ Goes depth cs rest gs

theorem reads_nil (depth : Nat) : Reads depth [] [] := by
  intro rest under
  exact ⟨under, fun finish line => ⟨line, [], rfl, (map_nil_append _).symm⟩⟩

theorem Reads.append {depth : Nat} {cs ds : List Char} {gs hs : List Token}
    (first : Reads depth cs gs) (second : Reads depth ds hs) :
    Reads depth (cs ++ ds) (gs ++ hs) := by
  intro rest under
  obtain ⟨under', goes'⟩ := second rest under
  obtain ⟨under'', goes⟩ := first (ds ++ rest) under'
  exact ⟨by rwa [List.append_assoc], goes.append goes'⟩

section Line

variable {cs : List Char} {gs : List Token} (h : Stretch cs gs)

include h

theorem starts_line (depth : Nat) (ds : List Char) :
    Starts depth (List.replicate (4 * depth) ' ' ++ cs ++ ds) := by
  obtain ⟨c, head, begins⟩ := h.begins
  cases cs with
  | nil => cases head
  | cons d cs =>
    cases head
    exact ⟨c, cs ++ ds, by simp, begins⟩

theorem goes_line (depth : Nat) (rest : List Char) :
    Goes depth (List.replicate (4 * depth) ' ' ++ cs ++ ['\n']) rest
      (gs ++ [.mark .newline]) := by
  intro finish line
  obtain ⟨first, behind, ts, content, rfl⟩ :=
    ofLine_yields h.begins (h.yields _ (ends_newline rest)) line (4 * depth)
  refine ⟨behind.line + 1, ts ++ [.newline behind], by rw [List.map_append]; rfl, ?_⟩
  have whole : List.replicate (4 * depth) ' ' ++ cs ++ ['\n'] ++ rest =
      List.replicate (4 * depth) ' ' ++ (cs ++ '\n' :: rest) := by simp
  rw [whole, content, tokens_steps, ofContent_newline, tokens_append, lay_tokens]
  change Except.map _ (tokens finish (steps depth) (.token (.newline behind) :: _)) = _
  rw [tokens, map_map]
  simp only [List.append_assoc]
  rfl

theorem reads_line (depth : Nat) :
    Reads depth (List.replicate (4 * depth) ' ' ++ cs ++ ['\n']) (gs ++ [.mark .newline]) :=
  fun rest _ => ⟨((starts_line h depth _).append rest).under, goes_line h depth rest⟩

theorem reads_block (depth : Nat) {ds : List Char} {hs : List Token}
    (starts : Starts (depth + 1) ds) (body : Reads (depth + 1) ds hs) :
    Reads depth (List.replicate (4 * depth) ' ' ++ cs ++ ['\n'] ++ ds)
      (gs ++ [.mark .newline] ++ (.mark .indent :: hs ++ [.mark .dedent])) := by
  intro rest under
  have inner := (body rest (under.mono (Nat.le_succ depth))).2
  exact ⟨(((starts_line h depth _).append ds).append rest).under,
    (goes_line h depth (ds ++ rest)).append (goes_block starts under inner)⟩

end Line

end Layout

theorem tokenize_reads {text : String} {first last cs : List Char} {gs hs is : List Token}
    (whole : text.toList = first ++ '\n' :: (cs ++ last)) (h : Piece.Stretch first gs)
    (body : Layout.Reads 0 cs hs) (h' : Piece.Stretch last is) :
    ∃ ts finish, tokenize text = .ok (ts ++ [.eof finish]) ∧
      ts.map Token.unplaced = gs ++ [.mark .newline] ++ hs ++ is := by
  have under : Layout.Under 0 last := by
    simpa using (Layout.starts_line h' 0 []).under
  have goes := (Layout.goes_line h 0 (cs ++ last)).append (body last under).2
  obtain ⟨line, ts, same, read⟩ := goes (Position.start.after text.toList) 1
  obtain ⟨place, behind, us, content, same'⟩ :=
    Piece.ofLine_yields h'.begins (h'.yields [] Piece.ends_nil) line 0
  rw [List.replicate_zero, List.nil_append, List.append_nil, Piece.ofContent_nil,
    List.append_nil] at content
  refine ⟨ts ++ us, Position.start.after text.toList, ?_, by rw [List.map_append, same, same']⟩
  have text' : text.toList =
      List.replicate (4 * 0) ' ' ++ first ++ ['\n'] ++ cs ++ last := by simp [whole]
  have ended : Layout.tokens (Position.start.after text.toList) (Layout.steps 0)
      (.content 0 place :: us.map Piece.token) =
        .ok (us ++ [.eof (Position.start.after text.toList)]) := by
    have body := Layout.tokens_append (Position.start.after text.toList) [] (us.map Piece.token) []
    rw [List.append_nil, Layout.lay_tokens] at body
    exact (@Layout.tokens_steps _ _ _ 0).trans body
  rw [content, ended, ← text'] at read
  rw [List.append_assoc]
  exact read

end Miaou
