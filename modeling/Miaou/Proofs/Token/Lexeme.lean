import Miaou.Proofs.Text.Runs
import Miaou.Token.Lexeme

/-!
Lexemes are found again: a lexeme depends only on the characters it takes and on the first
characters behind them, so its own text alone is read as the same lexeme.
-/

namespace Miaou.Lexeme

open Text

theorem isInline_of_continuesWord {c : Char} (h : continuesWord c = true) :
    isInline c = false := by
  by_contra blank
  simp only [isInline, Bool.not_eq_false, Bool.or_eq_true, decide_eq_true_eq] at blank
  rcases blank with (rfl | rfl) | rfl <;> exact absurd h (by decide)

/-! Strings -/

@[simp] theorem quoted?_close (quote : Char) (cs : List Char) :
    quoted? quote (quote :: cs) = some ([], 1) := by
  rw [quoted?.eq_def]
  simp

theorem quoted?_escape {quote : Char} (h : '\\' ≠ quote) (d : Char) (ds : List Char) :
    quoted? quote ('\\' :: d :: ds) =
      (quoted? quote ds).map fun (value, size) => (unescape d :: value, size + 2) := by
  rw [quoted?.eq_def]
  simp [h]

theorem quoted?_plain {quote c : Char} (h : c ≠ quote) (plain : c ≠ '\\') (cs : List Char) :
    quoted? quote (c :: cs) =
      (quoted? quote cs).map fun (value, size) => (c :: value, size + 1) := by
  rw [quoted?.eq_def]
  simp [h, plain]

theorem quoted?_size_le {quote : Char} {cs value : List Char} {n : Nat}
    (h : quoted? quote cs = some (value, n)) : n ≤ cs.length := by
  fun_induction quoted? quote cs generalizing value n with
  | case1 => cases h
  | case2 => cases h; simp
  | case3 => cases h
  | case4 d ds _ ih =>
    obtain ⟨⟨v, m⟩, inner, same⟩ := Option.map_eq_some_iff.mp h
    have bound := ih inner
    cases same
    simp only [List.length_cons]
    omega
  | case5 c cs _ _ ih =>
    obtain ⟨⟨v, m⟩, inner, same⟩ := Option.map_eq_some_iff.mp h
    have bound := ih inner
    cases same
    simp only [List.length_cons]
    omega

theorem quoted?_take {quote : Char} {cs value : List Char} {n : Nat}
    (h : quoted? quote cs = some (value, n)) (rest : List Char) :
    quoted? quote (cs.take n ++ rest) = some (value, n) := by
  fun_induction quoted? quote cs generalizing value n with
  | case1 => cases h
  | case2 => cases h; exact quoted?_close _ _
  | case3 => cases h
  | case4 d ds other ih =>
    obtain ⟨⟨v, m⟩, inner, same⟩ := Option.map_eq_some_iff.mp h
    have again := ih inner
    cases same
    simp [quoted?_escape other, again]
  | case5 c cs other plain ih =>
    obtain ⟨⟨v, m⟩, inner, same⟩ := Option.map_eq_some_iff.mp h
    have again := ih inner
    cases same
    simp [quoted?_plain other plain, again]

theorem quoted?_closes {quote : Char} {cs value : List Char} {n : Nat}
    (h : quoted? quote cs = some (value, n)) : ∃ inner, cs.take n = inner ++ [quote] := by
  fun_induction quoted? quote cs generalizing value n with
  | case1 => cases h
  | case2 =>
    cases h
    exact ⟨[], rfl⟩
  | case3 => cases h
  | case4 d ds _ ih =>
    obtain ⟨⟨v, m⟩, found, same⟩ := Option.map_eq_some_iff.mp h
    obtain ⟨inner, closed⟩ := ih found
    cases same
    exact ⟨'\\' :: d :: inner, by simp [closed]⟩
  | case5 c cs _ _ ih =>
    obtain ⟨⟨v, m⟩, found, same⟩ := Option.map_eq_some_iff.mp h
    obtain ⟨inner, closed⟩ := ih found
    cases same
    exact ⟨c :: inner, by simp [closed]⟩

theorem readString_take {quote : Char} {cs : List Char} {l : Lexeme}
    (h : readString quote cs = .ok l) : readString quote (cs.take (l.size - 1)) = .ok l := by
  unfold readString at h
  split at h
  · rename_i inner
    have again := quoted?_take inner []
    rw [List.append_nil] at again
    cases h
    simp [readString, again]
  · nomatch h

/-! Numbers -/

theorem fraction_eq_nil_of_stops {cs : List Char} (h : Stops (· = '.') cs) : fraction cs = [] := by
  unfold fraction
  split
  · exact absurd (stops_cons.mp h) (by decide)
  · rfl

theorem fraction_eq {cs : List Char} (h : fraction cs ≠ []) :
    ∃ rest, cs = '.' :: (fraction cs ++ rest) ∧ Stops Char.isDigit rest := by
  revert h
  unfold fraction
  split
  · rename_i ds
    intro _
    exact ⟨ds.dropWhile Char.isDigit, by rw [List.takeWhile_append_dropWhile], stops_dropWhile _ _⟩
  · intro h
    exact absurd rfl h

theorem fraction_point {part rest : List Char} (digits : ∀ d ∈ part, d.isDigit = true)
    (stop : Stops Char.isDigit rest) : fraction ('.' :: (part ++ rest)) = part :=
  takeWhile_run digits stop

theorem fraction_digits (cs : List Char) : ∀ d ∈ fraction cs, d.isDigit = true := by
  unfold fraction
  split
  · exact fun _ => List.mem_takeWhile_imp
  · intro d hd
    cases hd

theorem readNumber_run {whole rest : List Char} (digits : ∀ d ∈ whole, d.isDigit = true)
    (stop : Stops Char.isDigit rest) :
    readNumber (whole ++ rest) = ofNumber whole (fraction rest) := by
  rw [readNumber, takeWhile_run digits stop, dropWhile_run digits stop]

theorem ofNumber_size_eq {whole part : List Char} {l : Lexeme} (h : ofNumber whole part = .ok l) :
    l.size = if part = [] then whole.length else whole.length + 1 + part.length := by
  unfold ofNumber at h
  by_cases none : part = []
  · rw [if_neg (not_not.mpr none)] at h
    split at h
    · cases h
      rw [if_pos none]
    · nomatch h
  · rw [if_pos none] at h
    cases h
    rw [if_neg none]

theorem readNumber_split {cs : List Char} {l : Lexeme} (h : readNumber cs = .ok l) :
    ∃ whole rest, cs = whole ++ rest ∧ (∀ d ∈ whole, d.isDigit = true) ∧
      Stops Char.isDigit rest ∧ ofNumber whole (fraction rest) = .ok l ∧
      cs.take l.size = whole ++ if fraction rest = [] then [] else '.' :: fraction rest := by
  obtain ⟨whole, rest, rfl, digits, stop⟩ := exists_run Char.isDigit cs
  rw [readNumber_run digits stop] at h
  refine ⟨whole, rest, rfl, digits, stop, h, ?_⟩
  have size := ofNumber_size_eq h
  by_cases none : fraction rest = []
  · rw [if_pos none] at size ⊢
    rw [size, List.take_left, List.append_nil]
  · obtain ⟨more, spelled, _⟩ := fraction_eq none
    rw [if_neg none] at size ⊢
    have behind : rest.take (1 + (fraction rest).length) = '.' :: fraction rest := by
      generalize fraction rest = part at spelled ⊢
      subst spelled
      simp [Nat.add_comm 1]
    rw [size, Nat.add_assoc, List.take_length_add_append, behind]

theorem readNumber_take {cs : List Char} {l : Lexeme} (h : readNumber cs = .ok l) :
    readNumber (cs.take l.size) = .ok l := by
  obtain ⟨whole, rest, rfl, digits, -, read, taken⟩ := readNumber_split h
  rw [taken]
  by_cases none : fraction rest = []
  · rw [if_pos none, readNumber_run digits (stops_nil _)]
    rwa [none] at read
  · have point := fraction_point (fraction_digits rest) (stops_nil Char.isDigit)
    rw [List.append_nil] at point
    rw [if_neg none, readNumber_run digits (by simp), point]
    exact read

/-! Words -/

theorem readWord_run {word rest : List Char} (inside : ∀ c ∈ word, continuesWord c = true)
    (stop : Stops continuesWord rest) : readWord (word ++ rest) = ofWord word rest := by
  rw [readWord, takeWhile_run inside stop, dropWhile_run inside stop]

theorem compound?_second {word : String} {second spelling : String} {keyword : Keyword}
    (h : compound? word = some (second, keyword, spelling)) : second ≠ "" := by
  unfold compound? at h
  split at h <;> cases h <;> decide

@[simp] theorem fused?_nil (word : List Char) : fused? word [] = none := by
  unfold fused?
  cases h : compound? (lowered word) with
  | none => rfl
  | some found =>
    obtain ⟨second, keyword, spelling⟩ := found
    have different : lowered [] ≠ second := (compound?_second h).symm
    simp [different]

theorem fused?_run {word blanks next more : List Char} (blank : ∀ c ∈ blanks, isInline c = true)
    (stop : Stops isInline (next ++ more)) (inside : ∀ c ∈ next, continuesWord c = true)
    (ended : Stops continuesWord more) :
    fused? word (blanks ++ (next ++ more)) =
      (compound? (lowered word)).bind fun (second, keyword, spelling) =>
        if lowered next = second then
          some ⟨.keyword keyword, .str spelling, word.length + blanks.length + next.length⟩
        else none := by
  simp only [fused?, takeWhile_run blank stop, dropWhile_run blank stop, takeWhile_run inside ended,
    Option.bind_eq_bind]

theorem fused?_eq_some {word rest : List Char} {l : Lexeme} (h : fused? word rest = some l) :
    ∃ blanks next more keyword spelling, rest = blanks ++ (next ++ more) ∧
      (∀ c ∈ blanks, isInline c = true) ∧ (∀ c ∈ next, continuesWord c = true) ∧
      Stops isInline next ∧ Stops continuesWord more ∧
      compound? (lowered word) = some (lowered next, keyword, spelling) ∧
      l = ⟨.keyword keyword, .str spelling, word.length + blanks.length + next.length⟩ := by
  obtain ⟨blanks, tail, rfl, blank, stop⟩ := exists_run isInline rest
  obtain ⟨next, more, rfl, inside, ended⟩ := exists_run continuesWord tail
  rw [fused?_run blank stop inside ended, Option.bind_eq_some_iff] at h
  obtain ⟨⟨second, keyword, spelling⟩, compound, h⟩ := h
  simp only [Option.ite_none_right_eq_some, Option.some.injEq] at h
  obtain ⟨rfl, rfl⟩ := h
  exact ⟨blanks, next, more, keyword, spelling, rfl, blank, inside, stops_of_append stop, ended,
    compound, rfl⟩

theorem fused?_split {word rest : List Char} {l : Lexeme} (h : fused? word rest = some l) :
    ∃ blanks next more, rest = blanks ++ (next ++ more) ∧
      (∀ c ∈ blanks, isInline c = true) ∧ (∀ c ∈ next, continuesWord c = true) ∧ next ≠ [] ∧
      Stops continuesWord more ∧ l.size = word.length + blanks.length + next.length ∧
      fused? word (blanks ++ next) = some l := by
  obtain ⟨blanks, next, more, keyword, spelling, rfl, blank, inside, stop, ended, compound, rfl⟩ :=
    fused?_eq_some h
  have ne : next ≠ [] := by
    rintro rfl
    exact compound?_second compound rfl
  have alone := @fused?_run word blanks next [] blank (by rwa [List.append_nil]) inside
    (stops_nil _)
  rw [List.append_nil, compound] at alone
  exact ⟨blanks, next, more, rfl, blank, inside, ne, ended, rfl, by simp [alone]⟩

theorem ofWord_cases (word rest : List Char) :
    (ofWord word rest = ofWord word [] ∧ (ofWord word rest).size = word.length) ∨
      fused? word rest = some (ofWord word rest) ∧
        ∀ more, fused? word more = some (ofWord word rest) →
          ofWord word more = ofWord word rest := by
  unfold ofWord
  split
  · exact .inl ⟨rfl, rfl⟩
  · exact .inl ⟨rfl, rfl⟩
  · rw [fused?_nil]
    cases fused? word rest with
    | none => exact .inl ⟨rfl, rfl⟩
    | some l => exact .inr ⟨rfl, fun more h => by rw [h]; rfl⟩

theorem readWord_take (cs : List Char) : readWord (cs.take (readWord cs).size) = readWord cs := by
  obtain ⟨word, rest, rfl, inside, stop⟩ := exists_run continuesWord cs
  rw [readWord_run inside stop]
  rcases ofWord_cases word rest with ⟨alone, size⟩ | ⟨fused, again⟩
  · rw [size, List.take_left, ← List.append_nil word, readWord_run inside (stops_nil _),
      List.append_nil, alone]
  · obtain ⟨blanks, next, more, rfl, -, -, ne, -, size, short⟩ := fused?_split fused
    have taken :
        (word ++ (blanks ++ (next ++ more))).take (ofWord word (blanks ++ (next ++ more))).size =
          word ++ (blanks ++ next) := by
      rw [size, Nat.add_assoc, List.take_length_add_append, List.take_length_add_append,
        List.take_left]
    have stop' : Stops continuesWord (blanks ++ next) := by
      rw [← List.append_assoc] at stop
      exact stops_of_append stop
    rw [taken, readWord_run inside stop', again _ short]

theorem readWord_stops (cs : List Char) : Stops continuesWord (cs.drop (readWord cs).size) := by
  obtain ⟨word, rest, rfl, inside, stop⟩ := exists_run continuesWord cs
  rw [readWord_run inside stop]
  rcases ofWord_cases word rest with ⟨-, size⟩ | ⟨fused, -⟩
  · rw [size, List.drop_left]
    exact stop
  · obtain ⟨blanks, next, more, rfl, -, -, -, ended, size, -⟩ := fused?_split fused
    rw [size, Nat.add_assoc, List.drop_length_add_append, List.drop_length_add_append,
      List.drop_left]
    exact ended

/-! Symbols -/

def grows : Symbol → Char → Bool
  | .star, c => c = '*'
  | .slash, c => c = '/'
  | .assign, c => c = '='
  | .less, c => c = '='
  | .greater, c => c = '='
  | _, _ => false

@[simp] theorem grows_space (s : Symbol) : grows s ' ' = false := by
  cases s <;> rfl

theorem symbol?_spelled (sign : Symbol) {rest : List Char} (stop : Stops (grows sign) rest) :
    symbol? (sign.text.toList ++ rest) = some sign := by
  cases rest with
  | nil => cases sign <;> rfl
  | cons c cs =>
    have other := stops_cons.mp stop
    cases sign
    case star =>
      change symbol? ('*' :: c :: cs) = _
      simp [symbol?, of_decide_eq_false other]
    case slash =>
      change symbol? ('/' :: c :: cs) = _
      simp [symbol?, of_decide_eq_false other]
    case assign =>
      change symbol? ('=' :: c :: cs) = _
      simp [symbol?, of_decide_eq_false other]
    case less =>
      change symbol? ('<' :: c :: cs) = _
      simp [symbol?, of_decide_eq_false other]
    case greater =>
      change symbol? ('>' :: c :: cs) = _
      simp [symbol?, of_decide_eq_false other]
    all_goals rfl

theorem symbol?_sound {cs : List Char} {sign : Symbol} (h : symbol? cs = some sign) :
    ∃ rest, cs = sign.text.toList ++ rest := by
  unfold symbol? at h
  split at h <;> cases h <;> exact ⟨_, rfl⟩

theorem readSymbol_split {c : Char} {cs : List Char} {l : Lexeme}
    (h : readSymbol c cs = .ok l) :
    ∃ sign rest, l = ⟨.symbol sign, .str sign.text, sign.text.length⟩ ∧
      c :: cs = sign.text.toList ++ rest ∧ symbol? (c :: cs) = some sign := by
  unfold readSymbol at h
  split at h
  · rename_i sign found
    cases h
    obtain ⟨rest, spelled⟩ := symbol?_sound found
    exact ⟨sign, rest, rfl, spelled, found⟩
  · nomatch h

theorem readSymbol_take {c : Char} {cs : List Char} {l : Lexeme}
    (h : readSymbol c cs = .ok l) : readSymbol c (cs.take (l.size - 1)) = .ok l := by
  obtain ⟨sign, rest, rfl, spelled, -⟩ := readSymbol_split h
  have positive : 0 < sign.text.length := by cases sign <;> decide
  have taken : c :: cs.take (sign.text.length - 1) = sign.text.toList := by
    have whole := congrArg (List.take sign.text.length) spelled
    rw [← String.length_toList, List.take_left, String.length_toList] at whole
    rw [← whole, ← List.take_succ_cons, Nat.sub_add_cancel positive]
  have again := symbol?_spelled sign (stops_nil _)
  rw [List.append_nil] at again
  simp only [readSymbol, taken, again]

/-! The lexeme at the head of a text -/

theorem isDigit_of_startsWord {c : Char} (h : startsWord c = true) : c.isDigit = false := by
  by_contra digit
  simp only [Char.isDigit, Bool.not_eq_false, Bool.and_eq_true, decide_eq_true_eq, ge_iff_le,
    UInt32.le_iff_toNat_le] at digit
  obtain ⟨low, high⟩ := digit
  change 48 ≤ c.toNat at low
  change c.toNat ≤ 57 at high
  have underscore : c ≠ '_' := by
    rintro rfl
    exact absurd high (by decide)
  have letter : c.isAlpha = false := by
    change (decide (c.val ≥ 65 ∧ c.val ≤ 90) || c.val ≥ 97 && c.val ≤ 122) = false
    simp only [Bool.or_eq_false_iff, Bool.and_eq_false_iff, decide_eq_false_iff_not, ge_iff_le,
      UInt32.le_iff_toNat_le]
    change ¬(65 ≤ c.toNat ∧ c.toNat ≤ 90) ∧ (¬97 ≤ c.toNat ∨ ¬c.toNat ≤ 122)
    omega
  have ascii : c.toNat < 128 := by omega
  simp [startsWord, isLetter, ascii, letter, underscore] at h

theorem read_string {c : Char} (h : c = '"' ∨ c = '\'') (cs : List Char) :
    read c cs = readString c cs := by
  rcases h with rfl | rfl <;> rfl

theorem read_number {c : Char} (h : c.isDigit = true) (cs : List Char) :
    read c cs = readNumber (c :: cs) := by
  have double : c ≠ '"' := by rintro rfl; exact absurd h (by decide)
  have single : c ≠ '\'' := by rintro rfl; exact absurd h (by decide)
  simp [read, double, single, h]

theorem read_word {c : Char} (h : startsWord c = true) (cs : List Char) :
    read c cs = .ok (readWord (c :: cs)) := by
  have double : c ≠ '"' := by rintro rfl; exact absurd h (by decide)
  have single : c ≠ '\'' := by rintro rfl; exact absurd h (by decide)
  have digit := isDigit_of_startsWord h
  simp [read, double, single, digit, h]

/-- The four readings of a lexeme, by the character it begins with. -/
theorem read_cases {c : Char} {cs : List Char} {l : Lexeme} (h : read c cs = .ok l) :
    ((c = '"' ∨ c = '\'') ∧ readString c cs = .ok l) ∨
      (c.isDigit = true ∧ readNumber (c :: cs) = .ok l) ∨
      (startsWord c = true ∧ readWord (c :: cs) = l) ∨
      (read c = readSymbol c ∧ readSymbol c cs = .ok l) := by
  by_cases quote : c = '"' ∨ c = '\''
  · rw [read_string quote] at h
    exact .inl ⟨quote, h⟩
  by_cases digit : c.isDigit = true
  · rw [read_number digit] at h
    exact .inr (.inl ⟨digit, h⟩)
  by_cases word : startsWord c = true
  · rw [read_word word] at h
    exact .inr (.inr (.inl ⟨word, Except.ok.inj h⟩))
  have symbol : read c = readSymbol c := by
    rw [not_or] at quote
    funext cs
    simp [read, quote.1, quote.2, digit, word]
  rw [symbol] at h
  exact .inr (.inr (.inr ⟨symbol, h⟩))

theorem readNumber_size_le {cs : List Char} {l : Lexeme} (h : readNumber cs = .ok l) :
    l.size ≤ cs.length := by
  obtain ⟨whole, rest, -, -, -, read, taken⟩ := readNumber_split h
  have length : (cs.take l.size).length = l.size := by
    rw [taken, ofNumber_size_eq read]
    split <;> simp
    omega
  rw [← length]
  exact List.length_take_le' _ _

theorem readWord_size_le (cs : List Char) : (readWord cs).size ≤ cs.length := by
  obtain ⟨word, rest, rfl, inside, stop⟩ := exists_run continuesWord cs
  rw [readWord_run inside stop]
  rcases ofWord_cases word rest with ⟨-, size⟩ | ⟨fused, -⟩
  · rw [size, List.length_append]
    exact Nat.le_add_right _ _
  · obtain ⟨blanks, next, more, rfl, -, -, -, -, size, -⟩ := fused?_split fused
    simp only [size, List.length_append]
    omega

theorem read_size_le {c : Char} {cs : List Char} {l : Lexeme} (h : read c cs = .ok l) :
    l.size ≤ cs.length + 1 := by
  rcases read_cases h with ⟨-, h⟩ | ⟨-, h⟩ | ⟨-, rfl⟩ | ⟨-, h⟩
  · unfold readString at h
    split at h
    · rename_i found
      cases h
      exact Nat.succ_le_succ (quoted?_size_le found)
    · cases h
  · exact readNumber_size_le h
  · exact readWord_size_le (c :: cs)
  · obtain ⟨sign, rest, rfl, spelled, -⟩ := readSymbol_split h
    rw [← List.length_cons (a := c), spelled, List.length_append, String.length_toList]
    exact Nat.le_add_right _ _

theorem read_take {c : Char} {cs : List Char} {l : Lexeme} (h : read c cs = .ok l) :
    read c (cs.take (l.size - 1)) = .ok l := by
  have shift : c :: cs.take (l.size - 1) = (c :: cs).take l.size := by
    rw [← List.take_succ_cons, Nat.sub_add_cancel (read_size_pos h)]
  rcases read_cases h with ⟨quote, h⟩ | ⟨digit, h⟩ | ⟨word, rfl⟩ | ⟨symbol, h⟩
  · rw [read_string quote]
    exact readString_take h
  · rw [read_number digit, shift]
    exact readNumber_take h
  · rw [read_word word, shift, readWord_take]
  · rw [symbol]
    exact readSymbol_take h

theorem continuesWord_of_isDigit {c : Char} (h : c.isDigit = true) : continuesWord c = true := by
  have ascii : c.toNat < 128 := by
    simp only [Char.isDigit, Bool.and_eq_true, decide_eq_true_eq, ge_iff_le,
      UInt32.le_iff_toNat_le] at h
    have high : c.toNat ≤ 57 := h.2
    omega
  simp [continuesWord, isFigure, ascii, h]

theorem stops_digit {rest : List Char} (h : Stops continuesWord rest) :
    Stops Char.isDigit rest := stops_mono (fun _ => continuesWord_of_isDigit) h

theorem take_ne_nil {c : Char} {cs : List Char} {l : Lexeme} (h : read c cs = .ok l) :
    (c :: cs).take l.size ≠ [] := by
  obtain ⟨k, hk⟩ := Nat.exists_eq_succ_of_ne_zero (Nat.ne_of_gt (read_size_pos h))
  simp [hk]

theorem read_parted {c : Char} {cs : List Char} {l : Lexeme} (h : read c cs = .ok l) :
    Parted Char.isDigit ((c :: cs).take l.size) ((c :: cs).drop l.size) := by
  rcases read_cases h with ⟨quote, h⟩ | ⟨-, h⟩ | ⟨-, rfl⟩ | ⟨-, h⟩
  · unfold readString at h
    split at h <;> cases h
    rename_i found
    obtain ⟨inner, closed⟩ := quoted?_closes found
    rw [List.take_succ_cons, closed, ← List.cons_append]
    refine parted_concat ?_ _ _
    rcases quote with rfl | rfl <;> rfl
  · obtain ⟨whole, rest, same, -, stop, -, taken⟩ := readNumber_split h
    have cut := List.take_append_drop l.size (c :: cs)
    rw [taken, same, List.append_assoc, List.append_cancel_left_eq] at cut
    by_cases none : fraction rest = []
    · rw [if_pos none, List.nil_append] at cut
      rw [same, cut]
      exact parted_of_stops stop _
    · obtain ⟨more, spelled, ended⟩ := fraction_eq none
      rw [if_neg none, List.cons_append] at cut
      have behind := List.append_cancel_left (List.cons.inj (cut.trans spelled)).2
      rw [same, behind]
      exact parted_of_stops ended _
  · exact parted_of_stops (stops_digit (readWord_stops _)) _
  · obtain ⟨sign, rest, rfl, spelled, -⟩ := readSymbol_split h
    have taken : (c :: cs).take sign.text.length = sign.text.toList := by
      rw [spelled, ← String.length_toList, List.take_left]
    have none : ∀ d ∈ sign.text.toList, d.isDigit = false := by
      cases sign <;> simp [Symbol.text]
    intro d hd digit
    rw [taken] at hd
    rw [none d (List.mem_of_getLast? hd)] at digit
    cases digit

theorem mem_reserved {word : String} {kind : Kind} (h : Kind.ofWord? word = some kind) :
    (word, kind) ∈ Kind.reserved := by
  obtain ⟨before, behind, found, -⟩ := List.lookup_eq_some_iff.mp h
  rw [found]
  exact List.mem_append_right _ List.mem_cons_self

theorem isLayout_of_ofWord? {word : String} {kind : Kind} (h : Kind.ofWord? word = some kind) :
    kind.isLayout = false := by
  have all : ∀ entry ∈ Kind.reserved, entry.2.isLayout = false := by decide
  exact all (word, kind) (mem_reserved h)

theorem fused?_kind {word rest : List Char} {l : Lexeme} (h : fused? word rest = some l) :
    ∃ keyword, l.kind = .keyword keyword := by
  obtain ⟨-, -, -, keyword, -, -, -, -, -, -, -, rfl⟩ := fused?_eq_some h
  exact ⟨keyword, rfl⟩

theorem ofWord_isLayout (word rest : List Char) : (ofWord word rest).kind.isLayout = false := by
  unfold ofWord
  split
  · rfl
  · rfl
  · rename_i kind _ found
    cases h : fused? word rest with
    | none => exact isLayout_of_ofWord? found
    | some l =>
      obtain ⟨keyword, same⟩ := fused?_kind h
      rw [Option.getD_some, same]
      rfl

theorem read_isLayout {c : Char} {cs : List Char} {l : Lexeme} (h : read c cs = .ok l) :
    l.kind.isLayout = false := by
  rcases read_cases h with ⟨-, h⟩ | ⟨-, h⟩ | ⟨-, rfl⟩ | ⟨-, h⟩
  · unfold readString at h
    split at h <;> cases h
    rfl
  · unfold readNumber ofNumber at h
    split at h
    · cases h
      rfl
    · split at h <;> cases h
      rfl
  · exact ofWord_isLayout _ _
  · obtain ⟨sign, -, rfl, -⟩ := readSymbol_split h
    rfl

end Miaou.Lexeme
