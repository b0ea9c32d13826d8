import Miaou.Proofs.Number.Digits
import Miaou.Proofs.Relocation
import Miaou.Proofs.Token.Scan

/-!
What a stretch of a line is read as. `Yields cs gs rest` says that `cs`, with `rest` behind it, is
read as the tokens `gs`, wherever it stands; stretches are put together one after the other. A
word or a number is only complete if what follows does not go on with it.
-/

namespace Miaou

def Token.word (kind : Kind) (text : String) : Token := ⟨kind, .str text, .start⟩

def Token.sign (s : Symbol) : Token := ⟨.symbol s, .str s.text, .start⟩

namespace Piece

open Text Lexeme

def Yields (cs : List Char) (gs : List Token) (rest : List Char) : Prop :=
  ∀ p, ∃ ts : List Token,
    ofContent p (cs ++ rest) = ts.map Piece.token ++ ofContent (p.after cs) rest ∧
      ts.map Token.unplaced = gs

theorem yields_nil (rest : List Char) : Yields [] [] rest := fun _ => ⟨[], rfl, rfl⟩

theorem yields_append {cs ds rest : List Char} {gs hs : List Token}
    (first : Yields cs gs (ds ++ rest)) (second : Yields ds hs rest) :
    Yields (cs ++ ds) (gs ++ hs) rest := by
  intro p
  obtain ⟨ts, read, rfl⟩ := first p
  obtain ⟨us, read', rfl⟩ := second (p.after cs)
  refine ⟨ts ++ us, ?_, List.map_append⟩
  rw [List.append_assoc, read, read', Position.after_append, List.map_append, List.append_assoc]

theorem yields_blank (rest : List Char) : Yields [' '] [] rest := by
  intro p
  exact ⟨[], ofContent_blank p (by decide) rest, rfl⟩

theorem yields_lexeme {c : Char} {cs rest : List Char} {l : Lexeme} (begins : Begins c)
    (read : Lexeme.read c (cs ++ rest) = .ok l) (size : l.size = cs.length + 1) :
    Yields (c :: cs) [⟨l.kind, l.payload, .start⟩] rest := by
  intro p
  have whole : c :: (cs ++ rest) = (c :: cs) ++ rest := rfl
  have taken : (c :: (cs ++ rest)).take l.size = c :: cs := by
    rw [whole, size, ← List.length_cons, List.take_left]
  have left : (c :: (cs ++ rest)).drop l.size = rest := by
    rw [whole, size, ← List.length_cons, List.drop_left]
  refine ⟨[⟨l.kind, l.payload, p⟩], ?_, ?_⟩
  · rw [← whole, ofContent_token p begins read, taken, left]
    rfl
  · rw [List.map_singleton, Token.unplaced, Token.relocate]
    simp [read_isLayout read]

/-! Symbols -/

theorem read_symbol (sign : Symbol) {rest : List Char} (stop : Stops (grows sign) rest) :
    ∃ c cs, sign.text.toList = c :: cs ∧ Begins c ∧
      Lexeme.read c (cs ++ rest) = .ok ⟨.symbol sign, .str sign.text, cs.length + 1⟩ := by
  have spelled := symbol?_spelled sign stop
  have first : ∃ c cs, sign.text.toList = c :: cs ∧ Begins c ∧ c ≠ '"' ∧ c ≠ '\'' ∧
      c.isDigit = false ∧ startsWord c = false := by
    unfold Begins
    cases sign <;> exact ⟨_, _, rfl, by decide⟩
  obtain ⟨c, cs, text, begins, double, single, digit, word⟩ := first
  refine ⟨c, cs, text, begins, ?_⟩
  rw [text, List.cons_append] at spelled
  have size : sign.text.length = cs.length + 1 := by
    rw [← String.length_toList, text, List.length_cons]
  simp [Lexeme.read, double, single, digit, word, readSymbol, spelled, size]

theorem yields_symbol (s : Symbol) {rest : List Char} (stop : Stops (grows s) rest) :
    Yields s.text.toList [.sign s] rest := by
  obtain ⟨c, cs, text, begins, read⟩ := read_symbol s stop
  rw [text]
  exact yields_lexeme begins read rfl

/-! Words -/

def isWord : List Char → Bool
  | [] => false
  | c :: cs => startsWord c && cs.all continuesWord

theorem continuesWord_of_isWord {word : List Char} (h : isWord word = true) :
    ∀ c ∈ word, continuesWord c = true := by
  cases word with
  | nil => nomatch h
  | cons c cs =>
    rw [isWord, Bool.and_eq_true, List.all_eq_true] at h
    exact List.forall_mem_cons.mpr ⟨continuesWord_of_startsWord h.1, h.2⟩

theorem begins_of_startsWord {c : Char} (h : startsWord c = true) : Begins c := by
  refine ⟨isInline_of_continuesWord (continuesWord_of_startsWord h), ?_, ?_⟩
  · rintro rfl
    exact absurd h (by decide)
  · rintro rfl
    exact absurd h (by decide)

theorem yields_word {word rest : List Char} {l : Lexeme} (h : isWord word = true)
    (stop : Stops continuesWord rest) (read : ofWord word rest = l) (size : l.size = word.length) :
    Yields word [⟨l.kind, l.payload, .start⟩] rest := by
  have inside := continuesWord_of_isWord h
  cases word with
  | nil => nomatch h
  | cons c cs =>
    have starts : startsWord c = true := by
      rw [isWord, Bool.and_eq_true] at h
      exact h.1
    refine yields_lexeme (begins_of_startsWord starts) ?_ size
    rw [read_word starts, ← List.cons_append, readWord_run inside stop, read]

theorem ofWord_name {word : List Char} (h : Kind.ofWord? (lowered word) = none)
    (rest : List Char) :
    ofWord word rest = ⟨.identifier, .str (String.ofList word), word.length⟩ := by
  rw [ofWord, h]

theorem fused?_single {word : List Char} (h : compound? (lowered word) = none)
    (rest : List Char) : fused? word rest = none := by
  rw [fused?, h]
  rfl

theorem ofWord_reserved {word rest : List Char} {kind : Kind}
    (h : Kind.ofWord? (lowered word) = some kind) (other : kind ≠ .boolean)
    (single : fused? word rest = none) :
    ofWord word rest = ⟨kind, .str (String.ofList word), word.length⟩ := by
  rw [ofWord, h]
  split
  · rename_i none
    cases none
  · rename_i boolean
    cases boolean
    exact absurd rfl other
  · rename_i same
    cases same
    rw [single]
    rfl

theorem ofWord_fused {word rest : List Char} {kind : Kind} {l : Lexeme}
    (h : Kind.ofWord? (lowered word) = some kind) (other : kind ≠ .boolean)
    (fused : fused? word rest = some l) : ofWord word rest = l := by
  rw [ofWord, h]
  split
  · rename_i none
    cases none
  · rename_i boolean
    cases boolean
    exact absurd rfl other
  · rw [fused]
    rfl

theorem yields_name {word rest : List Char} (h : isWord word = true)
    (free : Kind.ofWord? (lowered word) = none) (stop : Stops continuesWord rest) :
    Yields word [⟨.identifier, .str (String.ofList word), .start⟩] rest :=
  yields_word h stop (ofWord_name free rest) rfl

theorem yields_reserved {word rest : List Char} {kind : Kind} (h : isWord word = true)
    (reserved : Kind.ofWord? (lowered word) = some kind) (other : kind ≠ .boolean)
    (single : fused? word rest = none) (stop : Stops continuesWord rest) :
    Yields word [⟨kind, .str (String.ofList word), .start⟩] rest :=
  yields_word h stop (ofWord_reserved reserved other single) rfl

theorem yields_truth (b : Bool) {rest : List Char} (stop : Stops continuesWord rest) :
    Yields (Literal.bool b).text.toList [⟨.boolean, .bool b, .start⟩] rest := by
  cases b with
  | true => exact yields_word (by decide) stop rfl rfl
  | false => exact yields_word (by decide) stop rfl rfl

/-! Strings -/

theorem quoted?_script (value rest : List Char) :
    quoted? '"' (value.flatMap scriptChar ++ '"' :: rest) =
      some (value, (value.flatMap scriptChar).length + 1) := by
  induction value with
  | nil => exact quoted?_close _ _
  | cons c cs ih =>
    have escape (d : Char) (same : scriptChar c = ['\\', d]) (back : unescape d = c) :
        quoted? '"' ((c :: cs).flatMap scriptChar ++ '"' :: rest) =
          some (c :: cs, ((c :: cs).flatMap scriptChar).length + 1) := by
      rw [List.flatMap_cons, same]
      change quoted? '"' ('\\' :: d :: (cs.flatMap scriptChar ++ '"' :: rest)) = _
      rw [quoted?_escape (by decide), ih, Option.map_some, back]
      simp only [List.length_append, List.length_cons, List.length_nil]
      congr 2
      omega
    by_cases h₁ : c = '\\'
    · subst h₁
      exact escape '\\' rfl rfl
    by_cases h₂ : c = '"'
    · subst h₂
      exact escape '"' rfl rfl
    by_cases h₃ : c = '\n'
    · subst h₃
      exact escape 'n' rfl rfl
    by_cases h₄ : c = '\t'
    · subst h₄
      exact escape 't' rfl rfl
    by_cases h₅ : c = '\r'
    · subst h₅
      exact escape 'r' rfl rfl
    have plain : scriptChar c = [c] := by simp [scriptChar, h₁, h₂, h₃, h₄, h₅]
    rw [List.flatMap_cons, plain, List.singleton_append, List.cons_append, quoted?_plain h₂ h₁, ih,
      Option.map_some, List.length_cons]

theorem read_script (value rest : List Char) :
    Lexeme.read '"' (value.flatMap scriptChar ++ ['"'] ++ rest) =
      .ok ⟨.string, .str (String.ofList value), (script value).length⟩ := by
  rw [List.append_assoc, List.singleton_append, read_string (.inl rfl), readString, quoted?_script]
  simp [script]

theorem yields_string (value rest : List Char) :
    Yields (script value) [⟨.string, .str (String.ofList value), .start⟩] rest :=
  yields_lexeme (by unfold Begins; decide) (read_script value rest) rfl

/-! Numbers -/

theorem begins_of_isDigit {c : Char} (h : c.isDigit = true) : Begins c := by
  refine ⟨isInline_of_continuesWord (continuesWord_of_isDigit h), ?_, ?_⟩
  · rintro rfl
    exact absurd h (by decide)
  · rintro rfl
    exact absurd h (by decide)

/-- What does not go on with a word or a number before it. -/
def Ends (rest : List Char) : Prop := Stops continuesWord rest ∧ fraction rest = []

theorem yields_digits {ds rest : List Char} (ne : ds ≠ []) (digits : ∀ d ∈ ds, d.isDigit = true)
    (small : Digits.value ds ≤ largest) (stop : Stops Char.isDigit rest)
    (point : fraction rest = []) :
    Yields ds [⟨.number, .int (Digits.value ds), .start⟩] rest := by
  have read := readNumber_run digits stop
  rw [point, ofNumber, if_neg (not_not.mpr rfl), if_pos small] at read
  cases ds with
  | nil => exact absurd rfl ne
  | cons d ds =>
    have first := digits d List.mem_cons_self
    exact yields_lexeme (begins_of_isDigit first) ((read_number first _).trans read) rfl

theorem yields_int {n : Nat} (h : n ≤ largest) {rest : List Char} (ends : Ends rest) :
    Yields (Digits.ofNat n) [⟨.number, .int n, .start⟩] rest := by
  have value := Digits.value_ofNat n
  have whole := yields_digits (Digits.ofNat_ne_nil n) (Digits.isDigit_ofNat n) (value.trans_le h)
    (stops_digit ends.1) ends.2
  rwa [value] at whole

theorem yields_decimal {whole part rest : List Char} (ne : whole ≠ []) (ne' : part ≠ [])
    (digits : ∀ d ∈ whole ++ part, d.isDigit = true) (stop : Stops Char.isDigit rest) :
    Yields (whole ++ '.' :: part)
      [⟨.number, .float (.ofDecimal false (Digits.value (whole ++ part)) (-part.length)), .start⟩]
      rest := by
  have before : ∀ d ∈ whole, d.isDigit = true := fun d hd => digits d (List.mem_append_left _ hd)
  have behind : ∀ d ∈ part, d.isDigit = true := fun d hd => digits d (List.mem_append_right _ hd)
  have read := @readNumber_run whole ('.' :: (part ++ rest)) before (by simp)
  rw [fraction_point behind stop, ofNumber, if_pos ne'] at read
  cases whole with
  | nil => exact absurd rfl ne
  | cons d ds =>
    have first := before d List.mem_cons_self
    have same : d :: ds ++ '.' :: (part ++ rest) = d :: (ds ++ '.' :: part ++ rest) := by simp
    rw [same, ← read_number first] at read
    refine yields_lexeme (begins_of_isDigit first) read ?_
    simp only [List.length_append, List.length_cons]
    omega

theorem ends_nil : Ends [] := ⟨stops_nil _, rfl⟩

theorem ends_cons {c : Char} (h : continuesWord c = false) (point : c ≠ '.') (cs : List Char) :
    Ends (c :: cs) :=
  ⟨stops_cons.mpr h, fraction_eq_nil_of_stops (by simpa using point)⟩

theorem ends_point {cs : List Char} (h : Stops Char.isDigit cs) : Ends ('.' :: cs) :=
  ⟨stops_cons.mpr (by decide), @takeWhile_run _ Char.isDigit [] cs (by simp) h⟩

/-! Stretches of one token -/

/-- A text that is read as one token, whatever follows that does not go on with a word or a
number. -/
structure Stands (cs : List Char) (t : Token) : Prop where
  begins : ∃ c ∈ cs.head?, Begins c
  yields : ∀ rest, Ends rest → Yields cs [t] rest

theorem stands_string (s : String) : Stands (script s.toList) ⟨.string, .str s, .start⟩ where
  begins := ⟨'"', rfl, by unfold Begins; decide⟩
  yields rest _ := by simpa using yields_string s.toList rest

theorem stands_int {n : Nat} (h : n ≤ largest) :
    Stands (Digits.ofNat n) ⟨.number, .int n, .start⟩ where
  begins := by
    have digits := Digits.isDigit_ofNat n
    have ne := Digits.ofNat_ne_nil n
    generalize Digits.ofNat n = ds at digits ne
    cases ds with
    | nil => exact absurd rfl ne
    | cons d ds => exact ⟨d, rfl, begins_of_isDigit (digits d List.mem_cons_self)⟩
  yields _ ends := yields_int h ends

theorem stands_point {whole part : List Char} (ne : whole ≠ []) (ne' : part ≠ [])
    (digits : ∀ d ∈ whole ++ part, d.isDigit = true) :
    Stands (whole ++ '.' :: part)
      ⟨.number, .float (.ofDecimal false (Digits.value (whole ++ part)) (-part.length)),
        .start⟩ where
  begins := by
    cases whole with
    | nil => exact absurd rfl ne
    | cons d ds => exact ⟨d, rfl, begins_of_isDigit (digits d (by simp))⟩
  yields _ ends := yields_decimal ne ne' digits (stops_digit ends.1)

theorem stands_quoted (s : String) :
    Stands (Literal.str s).text.toList ⟨.string, .str s, .start⟩ := by
  rw [Literal.text, String.toList_ofList]
  exact stands_string s

theorem stands_natural {n : Nat} (h : n ≤ largest) :
    Stands (Literal.int n).text.toList ⟨.number, .int n, .start⟩ := by
  rw [Literal.text, String.toList_ofList]
  exact stands_int h

theorem stands_truth (b : Bool) :
    Stands (Literal.bool b).text.toList ⟨.boolean, .bool b, .start⟩ where
  begins := by
    unfold Begins
    cases b <;> exact ⟨_, rfl, by decide⟩
  yields _ ends := yields_truth b ends.1

structure Named (kind : Kind) (w : String) : Prop where
  word : isWord w.toList = true
  means : (Kind.ofWord? (lowered w.toList)).getD .identifier = kind
  plain : kind ≠ .boolean
  single : compound? (lowered w.toList) = none

theorem startsWord_of_isWord {word : List Char} (h : isWord word = true) :
    ∃ c ∈ word.head?, startsWord c = true := by
  cases word with
  | nil => nomatch h
  | cons c cs =>
    rw [isWord, Bool.and_eq_true] at h
    exact ⟨c, rfl, h.1⟩

theorem Named.ends {kind : Kind} {w : String} (h : Named kind w) (rest : List Char) :
    Ends ('.' :: (w.toList ++ rest)) := by
  obtain ⟨c, head, starts⟩ := startsWord_of_isWord h.word
  refine ends_point (stops_append ?_ ?_)
  · intro d hd
    cases Option.mem_unique head hd
    exact isDigit_of_startsWord starts
  · intro none
    rw [none] at head
    cases head

theorem Named.stands {kind : Kind} {w : String} (h : Named kind w) :
    Stands w.toList (.word kind w) where
  begins := by
    obtain ⟨c, head, starts⟩ := startsWord_of_isWord h.word
    exact ⟨c, head, begins_of_startsWord starts⟩
  yields rest ends := by
    have named := h.means
    have text : String.ofList w.toList = w := String.ofList_toList
    cases found : Kind.ofWord? (lowered w.toList) with
    | none =>
      rw [found] at named
      have read := yields_name h.word found ends.1
      rwa [text, show Kind.identifier = kind from named] at read
    | some kind' =>
      rw [found] at named
      cases named
      have read := yields_reserved h.word found h.plain (fused?_single h.single rest) ends.1
      rwa [text] at read

end Piece

end Miaou
