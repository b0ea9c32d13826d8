import Miaou.Proofs.Token.Lexeme

/-!
Why no lexeme can be read. A string is not closed when each later quote of its kind is escaped, a
number is too large when its digits are all of it and their value is beyond the largest integer,
and any other character that is refused begins no lexeme at all, unless it is half of a symbol.
-/

namespace Miaou.Lexeme

open Text

/-- The character behind this text is escaped: an odd number of backslashes stands before it. -/
def Escaped (cs : List Char) : Prop := (cs.reverse.takeWhile (· = '\\')).length % 2 = 1

theorem escaped_plain {c : Char} (plain : c ≠ '\\') (cs : List Char) :
    Escaped (c :: cs) ↔ Escaped cs := by
  rw [Escaped, Escaped, List.reverse_cons, List.takeWhile_append]
  split
  · rename_i all
    simp [plain, all]
  · rfl

@[simp] theorem escaped_pair (d : Char) (cs : List Char) :
    Escaped ('\\' :: d :: cs) ↔ Escaped cs := by
  rw [Escaped, Escaped, List.reverse_cons, List.reverse_cons, List.append_assoc,
    List.takeWhile_append]
  split
  · rename_i all
    by_cases slash : d = '\\' <;> simp [slash, all]
  · rfl

def Unclosed (quote : Char) (cs : List Char) : Prop :=
  ∀ inner rest, cs = inner ++ quote :: rest → Escaped inner

theorem unclosed_of_quoted? {quote : Char} (other : quote ≠ '\\') {cs : List Char}
    (h : quoted? quote cs = none) : Unclosed quote cs := by
  intro inner rest same
  -- By the cases of the reader. It takes an escape as one step of two characters, so a backslash
  -- that it meets at the beginning of a step always escapes the next character.
  fun_induction quoted? quote cs generalizing inner with
  | case1 => simp at same
  | case2 => cases h
  | case3 =>
    cases inner with
    | nil => exact absurd (List.cons.inj same).1.symm other
    | cons c inner => simp at same
  | case4 d ds _ ih =>
    have more : quoted? quote ds = none := by simpa using h
    cases inner with
    | nil => exact absurd (List.cons.inj same).1.symm other
    | cons c inner =>
      obtain ⟨rfl, behind⟩ := List.cons.inj same
      cases inner with
      | nil => rfl
      | cons e inner =>
        obtain ⟨rfl, rest⟩ := List.cons.inj behind
        exact (escaped_pair d inner).mpr (ih more inner rest)
  | case5 c cs different plain ih =>
    have more : quoted? quote cs = none := by simpa using h
    cases inner with
    | nil => exact absurd (List.cons.inj same).1 different
    | cons e inner =>
      obtain ⟨rfl, behind⟩ := List.cons.inj same
      exact (escaped_plain plain inner).mpr (ih more inner behind)

def signs : List Char :=
  ['*', '/', '=', '<', '>', '+', '-', '%', ':', ',', '(', ')', '[', ']', '.']

theorem symbol?_signs (cs : List Char) : ∀ c ∈ signs, (symbol? (c :: cs)).isSome = true := by
  cases cs with
  | nil => exact List.all_eq_true.mp rfl
  | cons d ds =>
    simp only [signs, List.forall_mem_cons]
    refine ⟨?_, ?_, ?_, ?_, ?_, ?_, ?_, ?_, ?_, ?_, ?_, ?_, ?_, ?_, ?_, List.forall_mem_nil _⟩
    · by_cases twice : d = '*' <;> simp [symbol?, twice]
    · by_cases twice : d = '/' <;> simp [symbol?, twice]
    · by_cases twice : d = '=' <;> simp [symbol?, twice]
    · by_cases equal : d = '=' <;> simp [symbol?, equal]
    · by_cases equal : d = '=' <;> simp [symbol?, equal]
    all_goals rfl

theorem symbol_chars (sign : Symbol) :
    sign.text.toList ≠ [] ∧ ∀ c ∈ sign.text.toList, c = '!' ∨ c ∈ signs := by
  cases sign <;> simp [Symbol.text, signs]

/-- What is no symbol cannot be made one by other characters behind it, except an exclamation
mark. -/
theorem symbol?_none {c : Char} {cs : List Char} (h : symbol? (c :: cs) = none) :
    (∀ rest, symbol? (c :: rest) = none) ∨ c = '!' ∧ cs.head? ≠ some '=' := by
  by_cases half : c = '!'
  · subst half
    refine .inr ⟨rfl, fun head => ?_⟩
    cases cs with
    | nil => cases head
    | cons d ds =>
      cases head
      cases h
  · refine .inl fun rest => ?_
    cases found : symbol? (c :: rest) with
    | none => rfl
    | some sign =>
      obtain ⟨more, spelled⟩ := symbol?_sound found
      obtain ⟨ne, chars⟩ := symbol_chars sign
      generalize sign.text.toList = text at spelled ne chars
      cases text with
      | nil => exact absurd rfl ne
      | cons d ds =>
        cases (List.cons.inj spelled).1
        rcases chars c List.mem_cons_self with same | member
        · exact absurd same half
        · have some := symbol?_signs cs c member
          rw [h] at some
          cases some

/-- A character from which no lexeme can be read, with the text behind it and what is told. -/
inductive Refused (c : Char) (cs : List Char) : Misreading → Prop where
  | string (quote : c = '"' ∨ c = '\'') (unclosed : Unclosed c cs) :
      Refused c cs ⟨.unclosedString, [c]⟩
  | number {run rest : List Char} (digit : c.isDigit = true) (whole : c :: cs = run ++ rest)
      (digits : ∀ d ∈ run, d.isDigit = true) (ended : Stops Char.isDigit rest)
      (integer : fraction rest = []) (large : largest < Digits.value run) :
      Refused c cs ⟨.overflow, run⟩
  | symbol (other : (∀ rest l, read c rest ≠ .ok l) ∨ c = '!' ∧ cs.head? ≠ some '=') :
      Refused c cs ⟨.unknownInstruction, [c]⟩

theorem readNumber_error {cs : List Char} {e : Misreading} (h : readNumber cs = .error e) :
    ∃ run rest, cs = run ++ rest ∧ (∀ d ∈ run, d.isDigit = true) ∧ Stops Char.isDigit rest ∧
      fraction rest = [] ∧ largest < Digits.value run ∧ e = ⟨.overflow, run⟩ := by
  obtain ⟨run, rest, rfl, digits, stop⟩ := exists_run Char.isDigit cs
  rw [readNumber_run digits stop, ofNumber] at h
  refine ⟨run, rest, rfl, digits, stop, ?_⟩
  split at h
  · cases h
  · rename_i integer
    split at h <;> cases h
    rename_i large
    exact ⟨not_not.mp integer, Nat.not_le.mp large, rfl⟩

theorem read_refused {c : Char} {cs : List Char} {e : Misreading} (h : read c cs = .error e) :
    Refused c cs e := by
  by_cases quote : c = '"' ∨ c = '\''
  · rw [read_string quote, readString] at h
    split at h <;> cases h
    rename_i none
    refine .string quote (unclosed_of_quoted? ?_ none)
    rcases quote with rfl | rfl <;> decide
  by_cases digit : c.isDigit = true
  · rw [read_number digit] at h
    obtain ⟨run, rest, whole, digits, ended, integer, large, rfl⟩ := readNumber_error h
    exact .number digit whole digits ended integer large
  by_cases word : startsWord c = true
  · rw [read_word word] at h
    cases h
  have sign : read c = readSymbol c := by
    rw [not_or] at quote
    funext cs
    simp [read, quote.1, quote.2, digit, word]
  rw [sign, readSymbol] at h
  split at h <;> cases h
  rename_i none
  refine .symbol ((symbol?_none none).imp_left fun all rest l read => ?_)
  rw [sign, readSymbol, all rest] at read
  cases read

end Miaou.Lexeme
