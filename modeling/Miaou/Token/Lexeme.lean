import Miaou.Fault
import Miaou.Text.Alphabetic
import Miaou.Token.Basic

/-!
The lexeme at the head of a text: a string, a number, a word or a symbol. A lexeme says how many
characters it takes, so its spelling and what follows it are the two parts of the text, and
reading never looks at the place where the text stands.
-/

namespace Miaou

structure Lexeme where
  kind : Kind
  payload : Payload
  /-- The number of characters taken. -/
  size : Nat
  deriving DecidableEq, Repr

/-- Why no lexeme could be read, with the offending text. -/
structure Misreading where
  cause : Cause
  text : List Char
  deriving DecidableEq, Repr

namespace Lexeme

def isInline (c : Char) : Bool := c = ' ' || c = '\t' || c = '\r'

def startsWord (c : Char) : Bool := Text.isLetter c || c = '_'

def continuesWord (c : Char) : Bool := Text.isLetter c || Text.isFigure c || c = '_'

/-- The value of a string literal and its size, from behind the opening quote. -/
def quoted? (quote : Char) : List Char → Option (List Char × Nat)
  | [] => none
  | c :: cs =>
    if c = quote then some ([], 1)
    else if c = '\\' then
      match cs with
      | [] => none
      | d :: ds => (quoted? quote ds).map fun (value, size) => (Text.unescape d :: value, size + 2)
    else (quoted? quote cs).map fun (value, size) => (c :: value, size + 1)

def readString (quote : Char) (cs : List Char) : Except Misreading Lexeme :=
  match quoted? quote cs with
  | some (value, size) => .ok ⟨.string, .str (String.ofList value), size + 1⟩
  | none => .error ⟨.unclosedString, [quote]⟩

/-- The digits behind a decimal point; a point without digits is no part of a number. -/
def fraction (cs : List Char) : List Char :=
  match cs with
  | '.' :: ds => ds.takeWhile Char.isDigit
  | _ => []

def largest : Nat := 9223372036854775807

def ofNumber (whole part : List Char) : Except Misreading Lexeme :=
  if part ≠ [] then
    .ok ⟨.number, .float (.ofDecimal false (Digits.value (whole ++ part)) (-part.length)),
      whole.length + 1 + part.length⟩
  else if Digits.value whole ≤ largest then
    .ok ⟨.number, .int (Digits.value whole), whole.length⟩
  else .error ⟨.overflow, whole⟩

def readNumber (cs : List Char) : Except Misreading Lexeme :=
  ofNumber (cs.takeWhile Char.isDigit) (fraction (cs.dropWhile Char.isDigit))

/-- Reserved words are recognised in any mixture of cases. They are spelled in ASCII, and no other
character lowers to one of their letters alone. -/
def lowered (word : List Char) : String := String.ofList (word.map Char.toLower)

/-- The second half of a compound keyword, with the keyword and its usual spelling. -/
def compound? : String → Option (String × Keyword × String)
  | "sinon" => some ("si", .sinonSi, "sinon si")
  | "tant" => some ("que", .tantQue, "tant que")
  | "pour" => some ("chaque", .pourChaque, "pour chaque")
  | _ => none

def fused? (word rest : List Char) : Option Lexeme := do
  let (second, keyword, spelling) ← compound? (lowered word)
  let blanks := rest.takeWhile isInline
  let next := (rest.dropWhile isInline).takeWhile continuesWord
  if lowered next = second then
    some ⟨.keyword keyword, .str spelling, word.length + blanks.length + next.length⟩
  else none

def ofWord (word rest : List Char) : Lexeme :=
  match Kind.ofWord? (lowered word) with
  | none => ⟨.identifier, .str (String.ofList word), word.length⟩
  | some .boolean => ⟨.boolean, .bool (lowered word = "vrai"), word.length⟩
  | some kind => (fused? word rest).getD ⟨kind, .str (String.ofList word), word.length⟩

def readWord (cs : List Char) : Lexeme :=
  ofWord (cs.takeWhile continuesWord) (cs.dropWhile continuesWord)

def symbol? : List Char → Option Symbol
  | '*' :: '*' :: _ => some .starStar
  | '*' :: _ => some .star
  | '/' :: '/' :: _ => some .slashSlash
  | '/' :: _ => some .slash
  | '=' :: '=' :: _ => some .equal
  | '=' :: _ => some .assign
  | '<' :: '=' :: _ => some .lessEqual
  | '<' :: _ => some .less
  | '>' :: '=' :: _ => some .greaterEqual
  | '>' :: _ => some .greater
  | '!' :: '=' :: _ => some .notEqual
  | '+' :: _ => some .plus
  | '-' :: _ => some .minus
  | '%' :: _ => some .percent
  | ':' :: _ => some .colon
  | ',' :: _ => some .comma
  | '(' :: _ => some .leftParen
  | ')' :: _ => some .rightParen
  | '[' :: _ => some .leftBracket
  | ']' :: _ => some .rightBracket
  | '.' :: _ => some .dot
  | _ => none

def readSymbol (c : Char) (cs : List Char) : Except Misreading Lexeme :=
  match symbol? (c :: cs) with
  | some sign => .ok ⟨.symbol sign, .str sign.text, sign.text.length⟩
  | none => .error ⟨.unknownInstruction, [c]⟩

def read (c : Char) (cs : List Char) : Except Misreading Lexeme :=
  if c = '"' || c = '\'' then readString c cs
  else if c.isDigit then readNumber (c :: cs)
  else if startsWord c then .ok (readWord (c :: cs))
  else readSymbol c cs

theorem readString_size_pos {quote : Char} {cs : List Char} {l : Lexeme}
    (h : readString quote cs = .ok l) : 0 < l.size := by
  unfold readString at h
  split at h <;> cases h
  exact Nat.succ_pos _

theorem ofNumber_size {whole part : List Char} {l : Lexeme} (h : ofNumber whole part = .ok l) :
    whole.length ≤ l.size := by
  unfold ofNumber at h
  split at h
  · cases h
    simp only
    omega
  · split at h
    · cases h
      exact Nat.le_refl _
    · nomatch h

theorem fused?_size {word rest : List Char} {l : Lexeme} (h : fused? word rest = some l) :
    word.length ≤ l.size := by
  simp only [fused?, Option.bind_eq_bind, Option.bind_eq_some_iff] at h
  obtain ⟨_, _, h⟩ := h
  split at h <;> cases h
  simp only
  omega

theorem ofWord_size (word rest : List Char) : word.length ≤ (ofWord word rest).size := by
  unfold ofWord
  split
  · exact Nat.le_refl _
  · exact Nat.le_refl _
  · cases h : fused? word rest with
    | none => exact Nat.le_refl _
    | some l => exact fused?_size h

theorem continuesWord_of_startsWord {c : Char} (h : startsWord c = true) :
    continuesWord c = true := by
  simp only [startsWord, continuesWord, Bool.or_eq_true] at h ⊢
  rcases h with h | h
  · exact .inl (.inl h)
  · exact .inr h

theorem readSymbol_size_pos {c : Char} {cs : List Char} {l : Lexeme}
    (h : readSymbol c cs = .ok l) : 0 < l.size := by
  unfold readSymbol at h
  split at h <;> cases h
  rename_i sign _
  cases sign <;> decide

theorem read_size_pos {c : Char} {cs : List Char} {l : Lexeme} (h : read c cs = .ok l) :
    0 < l.size := by
  unfold read at h
  split at h
  · exact readString_size_pos h
  split at h
  · rename_i digit
    have taken := ofNumber_size h
    simp only [List.takeWhile_cons, digit, if_true, List.length_cons] at taken
    omega
  split at h
  · rename_i starts
    cases h
    refine Nat.lt_of_lt_of_le ?_ (ofWord_size _ _)
    simp [continuesWord_of_startsWord starts]
  · exact readSymbol_size_pos h

end Lexeme

end Miaou
