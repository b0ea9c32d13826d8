import Miaou.Proofs.Text.Letters
import Miaou.Proofs.Token.Scanner

/-!
Scripts whose reserved words are spelled in other cases. Where the scanner reads a reserved word,
or a keyword of two words, the letters of the second text may stand in the other case; everywhere
else the two texts are the same.

The two runs go on turn by turn: what the scanner takes in the first text it takes in the second,
and the tokens are the same but for the case of the words that they keep.
-/

namespace Miaou

open Text Lexeme Piece

def Kind.keepsSpelling : Kind → Bool
  | .keyword _ | .builtin _ => true
  | _ => false

def Kind.isReserved (kind : Kind) : Bool := kind.keepsSpelling || kind = .boolean

/-- What a token keeps of its word in other cases: the same, or the word in these cases. -/
def Payload.Respells (kind : Kind) (payload payload' : Payload) : Prop :=
  payload' = payload ∨ kind.keepsSpelling = true ∧ ∃ word word' : List Char,
    payload = .str (String.ofList word) ∧ payload' = .str (String.ofList word') ∧
      SameLetters word word'

/-- The token of a script whose reserved words are spelled in other cases: only the word that is
kept may differ, and only in its cases. -/
structure Token.Respells (t t' : Token) : Prop where
  kind : t'.kind = t.kind
  position : t'.position = t.position
  payload : t.payload.Respells t.kind t'.payload

theorem Token.Respells.refl (t : Token) : t.Respells t := ⟨rfl, rfl, .inl rfl⟩

/-! Lexemes -/

namespace Lexeme

theorem continuesWord_of_isAlpha (c : Char) (h : c.isAlpha = true) : continuesWord c = true := by
  rw [continuesWord, isLetter_of_isAlpha h]
  rfl

theorem startsWord_of_isAlpha (c : Char) (h : c.isAlpha = true) : startsWord c = true := by
  rw [startsWord, isLetter_of_isAlpha h]
  rfl

theorem isInline_of_isAlpha (c : Char) (h : c.isAlpha = true) : isInline c = false :=
  isInline_of_continuesWord (continuesWord_of_isAlpha c h)

theorem isDigit_of_isAlpha (c : Char) (h : c.isAlpha = true) : c.isDigit = false :=
  isDigit_of_startsWord (startsWord_of_isAlpha c h)

theorem grows_of_isAlpha (sign : Symbol) (c : Char) (h : c.isAlpha = true) :
    grows sign c = false := by
  cases sign <;> first | rfl | exact decide_eq_false (by rintro rfl; cases h)

theorem isAlpha_of_isInline {c : Char} (h : isInline c = true) : c.isAlpha = false :=
  isAlpha_eq_false isInline_of_isAlpha h

theorem lowered_respelled {word word' : List Char} (h : SameLetters word word') :
    lowered word' = lowered word := congrArg String.ofList h.lower

theorem fraction_respelled {cs cs' : List Char} (h : SameLetters cs cs') :
    fraction cs' = fraction cs := by
  cases h with
  | nil => rfl
  | @cons c c' cs cs' same more =>
    by_cases point : c = '.'
    · rw [same.eq_of_not_isAlpha (by rw [point]; rfl), point]
      exact SameLetters.takeWhile_eq more isDigit_of_isAlpha
    · have point' : c' ≠ '.' := (same.eq_iff rfl).not.mpr point
      rw [fraction_eq_nil_of_stops (stops_cons.mpr (decide_eq_false point)),
        fraction_eq_nil_of_stops (by simpa using point')]

theorem readNumber_respelled {cs cs' : List Char} (h : SameLetters cs cs') :
    readNumber cs' = readNumber cs := by
  rw [readNumber, readNumber, fraction_respelled (h.span isDigit_of_isAlpha).2,
    h.takeWhile_eq isDigit_of_isAlpha]

theorem fused?_respelled {word word' rest rest' : List Char} (words : SameLetters word word')
    (h : SameLetters rest rest') : fused? word' rest' = fused? word rest := by
  have blanks := (h.span isInline_of_isAlpha).1.length_eq
  have next := ((h.span isInline_of_isAlpha).2.span continuesWord_of_isAlpha).1
  unfold fused?
  simp only [lowered_respelled words, lowered_respelled next, ← words.length_eq, ← blanks,
    ← next.length_eq]

theorem keepsSpelling_of_ofWord? {word : String} {kind : Kind} (h : Kind.ofWord? word = some kind)
    (other : kind ≠ .boolean) : kind.keepsSpelling = true := by
  have all : ∀ entry ∈ Kind.reserved, entry.2.isReserved = true := by decide
  have reserved := all (word, kind) (mem_reserved h)
  rw [Kind.isReserved, Bool.or_eq_true] at reserved
  exact reserved.resolve_right fun boolean => other (of_decide_eq_true boolean)

structure Respells (l l' : Lexeme) : Prop where
  kind : l'.kind = l.kind
  size : l'.size = l.size
  payload : l.payload.Respells l.kind l'.payload

theorem Respells.refl (l : Lexeme) : l.Respells l := ⟨rfl, rfl, .inl rfl⟩

theorem ofWord_respelled {word word' rest rest' : List Char} (words : SameLetters word word')
    (h : SameLetters rest rest')
    (kept : (ofWord word rest).kind.isReserved = false → word' = word) :
    (ofWord word rest).Respells (ofWord word' rest') := by
  revert kept
  rw [ofWord, ofWord, lowered_respelled words, fused?_respelled words h, ← words.length_eq]
  split
  · intro kept
    rw [kept rfl]
    exact .refl _
  · exact fun _ => .refl _
  · rename_i kind other found
    intro _
    cases fused? word rest with
    | some l => exact .refl l
    | none =>
      exact ⟨rfl, rfl, .inr ⟨keepsSpelling_of_ofWord? found other, word, word', rfl, rfl, words⟩⟩

theorem size_readWord {cs : List Char} (other : (readWord cs).kind.isReserved = false) :
    (readWord cs).size = (cs.takeWhile continuesWord).length := by
  rcases ofWord_cases (cs.takeWhile continuesWord) (cs.dropWhile continuesWord) with
    ⟨-, size⟩ | ⟨fused, -⟩
  · exact size
  · obtain ⟨keyword, kind⟩ := fused?_kind fused
    rw [readWord, kind] at other
    cases other

@[simp] theorem take_takeWhile (p : Char → Bool) (cs : List Char) :
    cs.take (cs.takeWhile p).length = cs.takeWhile p :=
  (List.prefix_iff_eq_take.mp (List.takeWhile_prefix p)).symm

theorem isAlpha_of_symbol {sign : Symbol} : ∀ c ∈ sign.text.toList, c.isAlpha = false := by
  have none : sign.text.toList.all (!·.isAlpha) = true := by cases sign <;> decide
  exact fun c hc => by simpa using List.all_eq_true.mp none c hc

theorem readSymbol_respelled {c c' : Char} {cs cs' : List Char} {l : Lexeme}
    (same : SameLetters (c :: cs) (c' :: cs')) (h : readSymbol c cs = .ok l) :
    c' = c ∧ readSymbol c' cs' = .ok l := by
  obtain ⟨sign, -, rfl, -, found⟩ := readSymbol_split h
  obtain ⟨rest, spelled, stop⟩ := symbol?_longest found
  rw [spelled] at same
  obtain ⟨signs, rest', spelled', kept, behind⟩ := same.split
  rw [kept.eq_of_not_isAlpha isAlpha_of_symbol] at spelled'
  have again := symbol?_spelled sign (behind.stops (grows_of_isAlpha sign) stop)
  refine ⟨?_, by rw [readSymbol, spelled', again]⟩
  have ne : sign.text.toList ≠ [] := by cases sign <;> decide
  obtain ⟨d, ds, text⟩ := List.exists_cons_of_ne_nil ne
  rw [text] at spelled spelled'
  exact (List.cons.inj spelled').1.trans (List.cons.inj spelled).1.symm

/-- A lexeme is read from the text in other cases too, if these are the cases of a reserved word;
every other lexeme must stand there unchanged. -/
theorem read_respelled {c c' : Char} {cs cs' : List Char} {l : Lexeme} (first : SameLetter c c')
    (more : SameLetters cs cs') (found : read c cs = .ok l)
    (kept : l.kind.isReserved = false → (c' :: cs').take l.size = (c :: cs).take l.size) :
    ∃ l', read c' cs' = .ok l' ∧ l.Respells l' := by
  have whole : SameLetters (c :: cs) (c' :: cs') := .cons first more
  rcases read_cases found with ⟨quote, h⟩ | ⟨digit, h⟩ | ⟨word, rfl⟩ | ⟨symbol, h⟩
  · rw [first.eq_of_not_isAlpha (by rcases quote with rfl | rfl <;> rfl)] at kept ⊢
    refine ⟨l, ?_, .refl l⟩
    unfold readString at h
    split at h <;> cases h
    rename_i value n inside
    have same : cs'.take n = cs.take n := (List.cons.inj (kept rfl)).2
    have again := quoted?_take inside (cs'.drop n)
    rw [← same, List.take_append_drop] at again
    rw [read_string quote, readString, again]
  · have digit' : c'.isDigit = true := (first.test isDigit_of_isAlpha).trans digit
    exact ⟨l, by rw [read_number digit', readNumber_respelled whole, h], .refl l⟩
  · have word' : startsWord c' = true := (first.test startsWord_of_isAlpha).trans word
    obtain ⟨words, rest⟩ := whole.span continuesWord_of_isAlpha
    refine ⟨_, read_word word' cs', ofWord_respelled words rest fun other => ?_⟩
    have same := kept other
    rw [size_readWord other, take_takeWhile, words.length_eq, take_takeWhile] at same
    exact same
  · obtain ⟨rfl, again⟩ := readSymbol_respelled whole h
    exact ⟨l, by rw [symbol, again], .refl l⟩

end Lexeme

/-! Runs -/

namespace Scanner

/-- The character of this number stands in a reserved word, or in a keyword of two words. -/
def ReservedAt (cs : List Char) (n : Nat) : Prop :=
  ∃ x y t, Reaches (begin cs) x ∧ Goes x y ∧ y.tokens = x.tokens ++ [t] ∧
    t.kind.isReserved = true ∧ x.done.length ≤ n ∧ n < y.done.length

end Scanner

/-- The second text is the first one with its reserved words spelled in other cases. -/
structure Respelled (cs cs' : List Char) : Prop where
  letters : SameLetters cs cs'
  kept : ∀ n, ¬Scanner.ReservedAt cs n → cs'[n]? = cs[n]?

theorem Respelled.taken {cs cs' done done' taken taken' rest rest' : List Char}
    (h : Respelled cs cs') (whole : done ++ (taken ++ rest) = cs)
    (whole' : done' ++ (taken' ++ rest') = cs') (front : SameLetters done done')
    (here : SameLetters taken taken')
    (free : ∀ n, done.length ≤ n → n < (done ++ taken).length → ¬Scanner.ReservedAt cs n) :
    taken' = taken := by
  refine List.ext_getElem? fun i => ?_
  have size := front.length_eq
  have size' := here.length_eq
  by_cases inside : i < taken.length
  · have kept := h.kept (done.length + i)
      (free _ (Nat.le_add_right _ _) (by rw [List.length_append]; omega))
    rw [← whole, ← whole', List.getElem?_append_right (Nat.le_add_right _ _),
      List.getElem?_append_right (by omega), ← size, Nat.add_sub_cancel_left,
      List.getElem?_append_left inside, List.getElem?_append_left (by omega)] at kept
    exact kept
  · rw [List.getElem?_eq_none (by omega), List.getElem?_eq_none (by omega)]

/-- Two readings agree: like values, or one cause at one place. -/
inductive Agree {α : Type} (like : α → α → Prop) : (found found' : Except Fault α) → Prop where
  | ok {a a' : α} (value : like a a') : Agree like (.ok a) (.ok a')
  | error {fault fault' : Fault} (cause : fault'.cause = fault.cause)
      (position : fault'.position = fault.position) : Agree like (.error fault) (.error fault')

namespace Scanner

variable {cs cs' : List Char} {x x' y : Scanner}

theorem Reaches.not_reservedAt (run : Reaches (begin cs) x) {n : Nat} (low : x.done.length ≤ n)
    (free : ∀ y t, Goes x y →
      n < y.done.length ∧ (y.tokens = x.tokens ++ [t] → t.kind.isReserved = false)) :
    ¬ReservedAt cs n := by
  rintro ⟨z, w, t, before, step, found, reserved, low', high⟩
  have same (here : x = z) : False := by
    subst here
    rw [(free w t step).2 found] at reserved
    cases reserved
  rcases run.total before with later | earlier
  · rcases Relation.ReflTransGen.cases_head later with here | ⟨y, first, later⟩
    · exact same here
    · have passed := (free y t first).1
      obtain ⟨taken, -, done⟩ := Reaches.text later
      rw [done, List.length_append] at low'
      omega
  · rcases Relation.ReflTransGen.cases_head earlier with here | ⟨y, first, later⟩
    · exact same here.symm
    · obtain ⟨taken, -, done⟩ := Reaches.text later
      rw [first.unique step] at done
      rw [done, List.length_append] at low
      omega

/-- Two states of the runs over a script and over the script in other cases. -/
structure Respells (x x' : Scanner) : Prop where
  fresh : x'.fresh = x.fresh
  blocks : x'.blocks = x.blocks
  tokens : List.Forall₂ Token.Respells x.tokens x'.tokens
  done : SameLetters x.done x'.done
  rest : SameLetters x.rest x'.rest

theorem isAlpha_of_blanks {blanks : List Char} (blank : Blanks blanks) :
    ∀ c ∈ blanks, c.isAlpha = false := fun c hc => isAlpha_of_isInline (blank c hc)

theorem begins_respelled {c c' : Char} (h : SameLetter c c') (begins : Begins c) : Begins c' :=
  ⟨(h.test isInline_of_isAlpha).trans begins.1, (h.eq_iff rfl).not.mpr begins.2.1,
    (h.eq_iff rfl).not.mpr begins.2.2⟩

theorem stops_line_respelled {rest rest' : List Char} (h : SameLetters rest rest')
    (stop : Stops (· ≠ '\n') rest) : Stops (· ≠ '\n') rest' := by
  refine h.stops (b := true) (fun d letter => decide_eq_true ?_) stop
  rintro rfl
  cases letter

/-- A turn of the first run is answered by one of the second. -/
theorem Goes.respells (h : Respelled cs cs') (run : Reaches (begin cs) x)
    (run' : Reaches (begin cs') x') (step : Goes x y) (same : Respells x x') :
    ∃ y', Goes x' y' ∧ Respells y y' := by
  obtain ⟨done', text', fresh', blocks', tokens'⟩ := x'
  obtain ⟨freshs, open', found, front, text⟩ := same
  have whole := run.whole
  have whole' := run'.whole
  cases step.takes with
  | @idle done blanks rest blocks tokens blank =>
    cases freshs
    cases open'
    obtain ⟨line', rfl, line⟩ := text.pass (isAlpha_of_blanks blank)
    obtain ⟨rest', rfl, behind⟩ := line.pass_cons rfl
    exact ⟨_, Takes.turn (.idle blank), rfl, rfl, found,
      List.rel_append front (SameLetters.refl _), behind⟩
  | @remark done blanks words rest blocks tokens blank plain stop =>
    cases freshs
    cases open'
    rw [List.append_assoc] at text
    obtain ⟨line', rfl, line⟩ := text.pass (isAlpha_of_blanks blank)
    obtain ⟨note', rfl, note⟩ := line.pass_cons rfl
    obtain ⟨words', rest', rfl, inner, behind⟩ := note.split
    have step' := @Takes.remark done' blanks words' rest' blocks' tokens' blank
      ((inner.mem_iff rfl).not.mpr plain) (stops_line_respelled behind stop)
    rw [List.append_assoc] at step'
    exact ⟨_, step'.turn, rfl, rfl, found,
      List.rel_append front (List.rel_append (SameLetters.refl _) (.cons rfl inner)), behind⟩
  | @content done blanks rest c blocks still tokens marks blank begins fits =>
    cases freshs
    cases open'
    obtain ⟨line', rfl, line⟩ := text.pass (isAlpha_of_blanks blank)
    have passed : SameLetters (done ++ blanks) (done' ++ blanks) :=
      List.rel_append front (SameLetters.refl _)
    rw [← passed.after] at fits
    cases line with
    | cons first more =>
      exact ⟨_, Takes.turn (.content blank (begins_respelled first begins) fits), rfl, rfl,
        List.rel_append found (List.forall₂_same.mpr fun t _ => Token.Respells.refl t), passed,
        .cons first more⟩
  | @newline done rest blocks tokens =>
    cases freshs
    cases open'
    obtain ⟨rest', rfl, behind⟩ := text.pass_cons rfl
    exact ⟨_, Takes.turn .newline, rfl, rfl,
      List.rel_append found (.cons ⟨rfl, front.after _, .inl rfl⟩ .nil),
      List.rel_append front (SameLetters.refl _), behind⟩
  | @blank done rest c blocks tokens inline =>
    cases freshs
    cases open'
    obtain ⟨rest', rfl, behind⟩ := text.pass_cons (isAlpha_of_isInline inline)
    exact ⟨_, Takes.turn (.blank inline), rfl, rfl, found,
      List.rel_append front (SameLetters.refl _), behind⟩
  | @note done words rest blocks tokens plain stop =>
    cases freshs
    cases open'
    obtain ⟨note', rfl, note⟩ := text.pass_cons rfl
    obtain ⟨words', rest', rfl, inner, behind⟩ := note.split
    have step' := @Takes.note done' words' rest' blocks' tokens' ((inner.mem_iff rfl).not.mpr plain)
      (stops_line_respelled behind stop)
    exact ⟨_, step'.turn, rfl, rfl, found, List.rel_append front (.cons rfl inner), behind⟩
  | @lexeme done taken rest c l blocks tokens begins read size =>
    cases freshs
    cases open'
    obtain ⟨word', rest', rfl, word, behind⟩ := SameLetters.split text
    cases word with
    | @cons _ c' _ taken' first more =>
      have kept (other : l.kind.isReserved = false) :
          (c' :: (taken' ++ rest')).take l.size = (c :: (taken ++ rest)).take l.size := by
        have same : c' :: taken' = c :: taken := by
          refine h.taken whole whole' front (.cons first more) fun n low high => ?_
          refine run.not_reservedAt low fun z t step' => ?_
          cases step.unique step'
          refine ⟨high, fun last => ?_⟩
          rw [← (List.cons.inj (List.append_cancel_left last)).1]
          exact other
        rw [← List.cons_append, ← List.cons_append, same, size, ← List.length_cons (a := c),
          List.take_left, List.take_left]
      have texts : SameLetters (taken ++ rest) (taken' ++ rest') := List.rel_append more behind
      obtain ⟨l', read', spells⟩ := read_respelled first texts read kept
      have size' : l'.size = taken'.length + 1 := by
        rw [spells.size, size, more.length_eq]
      exact ⟨_, Takes.turn (.lexeme (begins_respelled first begins) read' size'), rfl, rfl,
        List.rel_append found (.cons ⟨spells.kind, front.after _, spells.payload⟩ .nil),
        List.rel_append front (.cons first more), behind⟩

theorem Respells.closed (same : Respells x x') :
    List.Forall₂ Token.Respells x.closed x'.closed := by
  have place : x'.position = x.position := same.done.after _
  rw [Scanner.closed, Scanner.closed, same.blocks, place]
  exact List.rel_append same.tokens (List.forall₂_same.mpr fun t _ => Token.Respells.refl t)

theorem Respells.ends {ts : List Token} (h : x.turn = .ends ts) (same : Respells x x') :
    ∃ ts', x'.turn = .ends ts' ∧ List.Forall₂ Token.Respells ts ts' := by
  obtain ⟨done', text', fresh', blocks', tokens'⟩ := x'
  obtain ⟨freshs, open', found, front, text⟩ := same
  cases takes_iff.mpr h with
  | @finish done blanks blocks tokens blank =>
    cases freshs
    cases text.eq_of_not_isAlpha (isAlpha_of_blanks blank)
    exact ⟨_, Takes.turn (.finish blank), Respells.closed
      ⟨rfl, open', found, List.rel_append front (SameLetters.refl _), .nil⟩⟩
  | @stop done blocks tokens =>
    cases freshs
    cases text
    exact ⟨_, Takes.turn .stop, Respells.closed ⟨rfl, open', found, front, .nil⟩⟩

theorem Respells.fails {fault : Fault} (h : Respelled cs cs') (run : Reaches (begin cs) x)
    (run' : Reaches (begin cs') x') (last : x.turn = .fails fault) (same : Respells x x') :
    x'.turn = .fails fault := by
  have none : ∀ y, ¬Goes x y := fun y step => nomatch last.symm.trans step
  have whole := run.whole
  have whole' := run'.whole
  obtain ⟨done', text', fresh', blocks', tokens'⟩ := x'
  obtain ⟨freshs, open', found, front, text⟩ := same
  cases takes_iff.mpr last with
  | @misfit done blanks rest c blocks tokens blank begins fits =>
    cases freshs
    cases open'
    obtain ⟨line', rfl, line⟩ := text.pass (isAlpha_of_blanks blank)
    have passed : SameLetters (done ++ blanks) (done' ++ blanks) :=
      List.rel_append front (SameLetters.refl _)
    rw [← passed.after] at fits ⊢
    cases line with
    | cons first more => exact Takes.turn (.misfit blank (begins_respelled first begins) fits)
  | @broken done rest c e blocks tokens begins read =>
    cases freshs
    cases open'
    -- No reserved word stands behind this place, so the two texts are the same from here on.
    have same : text' = c :: rest := by
      rw [← List.append_nil (c :: rest)] at whole
      rw [← List.append_nil text'] at whole'
      exact h.taken whole whole' front text fun n low _ =>
        run.not_reservedAt low fun y _ step => absurd step (none y)
    rw [← front.after, same]
    exact Takes.turn (.broken begins read)

theorem Respells.remaining (h : Respelled cs cs') {x x' : Scanner} (run : Reaches (begin cs) x)
    (run' : Reaches (begin cs') x') (same : Respells x x') :
    Agree (List.Forall₂ Token.Respells) x.remaining x'.remaining := by
  cases taken : x.turn with
  | ends ts =>
    obtain ⟨ts', taken', alike⟩ := same.ends taken
    rw [remaining_ends taken, remaining_ends taken']
    exact .ok alike
  | fails fault =>
    rw [remaining_fails taken run.placed,
      remaining_fails (same.fails h run run' taken) run'.placed]
    exact .error rfl rfl
  | goes y =>
    obtain ⟨y', step', same'⟩ := Goes.respells h run run' taken same
    rw [Goes.remaining taken run.placed, Goes.remaining step' run'.placed]
    have := Goes.left_lt taken
    exact Respells.remaining h (.tail run taken) (.tail run' step') same'
termination_by x.left

end Scanner

theorem tokenize_respelled {source source' : String} (h : Respelled source.toList source'.toList) :
    Agree (List.Forall₂ Token.Respells) (tokenize source) (tokenize source') := by
  rw [@Scanner.Reaches.tokenize source _ .refl, @Scanner.Reaches.tokenize source' _ .refl]
  exact Scanner.Respells.remaining h .refl .refl ⟨rfl, rfl, .nil, .nil, h.letters⟩

end Miaou
