import Miaou.Proofs.Diagnostic.Pointing
import Miaou.Proofs.Number.Word
import Miaou.Proofs.Token.Scanner
import Miaou.Proofs.Token.Yield

/-!
Integers are read exactly. Where the scanner meets a digit, no digit stands before it, so it reads
a whole run. With a point and a digit behind the run the number has a fraction and is read whatever
its size; else the run is one token with its value, or too large as a whole.
-/

namespace Miaou

namespace Lexeme

theorem fraction_eq_nil_iff {cs : List Char} :
    fraction cs = [] ↔ ∀ c more, cs = '.' :: c :: more → c.isDigit = false := by
  refine ⟨?_, fun plain => ?_⟩
  · rintro none c more rfl
    exact isDigit_of_fraction none
  · by_contra ne
    obtain ⟨behind, same, -⟩ := fraction_eq ne
    obtain ⟨d, ds, part⟩ := List.exists_cons_of_ne_nil ne
    have digit := fraction_digits cs d (part ▸ List.mem_cons_self)
    rw [part] at same
    rw [plain d _ same] at digit
    cases digit

end Lexeme

namespace Scanner

open Text Lexeme Piece

theorem stops_digit_of_feed {rest : List Char} (stop : Stops (· ≠ '\n') rest) :
    Stops Char.isDigit rest := by
  refine stops_mono (fun c digit => decide_eq_true ?_) stop
  rintro rfl
  cases digit

theorem Goes.parted {x y : Scanner} (h : Goes x y) (parted : Parted Char.isDigit x.done x.rest) :
    Parted Char.isDigit y.done y.rest := by
  -- Blanks and line feeds are no digits, behind a comment stands no digit, and a lexeme that ends
  -- with a digit goes on as far as there are digits.
  cases h.takes with
  | @idle done blanks rest blocks tokens blank =>
    change Parted Char.isDigit (done ++ (blanks ++ ['\n'])) rest
    rw [← List.append_assoc]
    exact parted_concat rfl _ _
  | remark blank line stop => exact parted_of_stops (stops_digit_of_feed stop) _
  | content blank begins fits => exact parted_blanks blank parted
  | newline => exact parted_concat rfl _ _
  | blank inline => exact parted_blanks (List.forall_mem_singleton.mpr inline) parted
  | note line stop => exact parted_of_stops (stops_digit_of_feed stop) _
  | @lexeme done taken rest c l blocks tokens begins read size =>
    have last := parted_append (read_parted read) (take_ne_nil read) done
    rwa [size, ← List.cons_append, ← List.length_cons (a := c), List.take_left,
      List.drop_left] at last

theorem Reaches.parted {cs : List Char} {x : Scanner} (h : Reaches (begin cs) x) :
    Parted Char.isDigit x.done x.rest := by
  induction h with
  | refl => exact parted_nil _ _
  | tail _ step ih => exact step.parted ih

/-- The scanner stands inside a line before a whole run of digits. -/
structure Meets (x : Scanner) (run rest : List Char) : Prop where
  inside : x.fresh = false
  text : x.rest = run ++ rest
  ne : run ≠ []
  digits : ∀ c ∈ run, c.isDigit = true
  ended : ∀ c ∈ rest.head?, c.isDigit = false

section Numbers

variable {x : Scanner} {run rest : List Char}

theorem Meets.parted (h : x.Meets run rest) (parted : Parted Char.isDigit x.done x.rest) :
    ∀ c ∈ x.done.getLast?, c.isDigit = false := by
  intro c last
  by_contra digit
  have stop := parted c last (by simpa using digit)
  rw [h.text] at stop
  obtain ⟨d, ds, rfl⟩ := List.exists_cons_of_ne_nil h.ne
  rw [List.cons_append, stops_cons, h.digits d List.mem_cons_self] at stop
  cases stop

theorem Meets.turn (h : x.Meets run rest) :
    x.turn =
      match ofNumber run (fraction rest) with
      | .error e => .fails ⟨e.cause, x.position, String.ofList e.text⟩
      | .ok l =>
        .goes { x.pass l.size with tokens := x.tokens ++ [⟨l.kind, l.payload, x.position⟩] } := by
  obtain ⟨done, cs, fresh, blocks, tokens⟩ := x
  obtain ⟨rfl, rfl, ne, digits, ended⟩ := h
  have read := readNumber_run digits ended
  obtain ⟨d, ds, rfl⟩ := List.exists_cons_of_ne_nil ne
  have digit := digits d List.mem_cons_self
  rw [List.cons_append, turn_lexeme (begins_of_isDigit digit), read_number digit,
    ← List.cons_append, read]
  rfl

def behind (x : Scanner) (text rest : List Char) (payload : Payload) : Scanner :=
  { x with
    done := x.done ++ text
    rest := rest
    tokens := x.tokens ++ [⟨.number, payload, x.position⟩] }

theorem Meets.pass_number (h : x.Meets run rest) {taken left : List Char}
    (same : run ++ rest = taken ++ left) (payload : Payload) :
    { x.pass taken.length with tokens := x.tokens ++ [⟨.number, payload, x.position⟩] } =
      x.behind taken left payload := by
  simp only [pass, behind, h.text, same, List.take_left, List.drop_left]

theorem Meets.turn_small (h : x.Meets run rest) (plain : fraction rest = [])
    (small : Digits.value run ≤ largest) :
    x.turn = .goes (x.behind run rest (.int (Digits.value run))) := by
  rw [h.turn, plain, ofNumber, if_neg (not_not.mpr rfl), if_pos small]
  exact congrArg Turn.goes (h.pass_number rfl _)

theorem Meets.turn_large (h : x.Meets run rest) (plain : fraction rest = [])
    (large : largest < Digits.value run) :
    x.turn = .fails ⟨.overflow, x.position, String.ofList run⟩ := by
  rw [h.turn, plain, ofNumber, if_neg (not_not.mpr rfl), if_neg (Nat.not_le.mpr large)]

theorem Meets.turn_fraction (h : x.Meets run rest) {part left : List Char}
    (same : rest = '.' :: (part ++ left)) (ne : part ≠ [])
    (digits : ∀ c ∈ part, c.isDigit = true) (stop : Stops Char.isDigit left) :
    x.turn = .goes (x.behind (run ++ '.' :: part) left
      (.float (.ofDecimal false (Digits.value (run ++ part)) (-part.length)))) := by
  have whole : run ++ rest = (run ++ '.' :: part) ++ left := by simp [same]
  have size : run.length + 1 + part.length = (run ++ '.' :: part).length := by
    rw [List.length_append, List.length_cons]
    omega
  rw [h.turn, same, fraction_point digits stop, ofNumber, if_pos ne]
  simp only [size]
  exact congrArg Turn.goes (h.pass_number whole _)

end Numbers

/-- The turn leads to the state `y`, and the script keeps what is read there: the tokens are its
first tokens, and no fault is told in the text that is passed. -/
structure Advances (source : String) (x y : Scanner) : Prop where
  goes : x.turn = .goes y
  tokens : ∀ ts, tokenize source = .ok ts → y.tokens <+: ts
  fault : ∀ fault, tokenize source = .error fault →
    y.done.length ≤ fault.position.offset source.toList

theorem Reaches.advances {source : String} {x y : Scanner} (h : Reaches (begin source.toList) x)
    (goes : x.turn = .goes y) : Advances source x y where
  goes := goes
  tokens _ := Reaches.tokens_kept (h.tail goes)
  fault _ := Reaches.fault_behind (h.tail goes)

theorem Reaches.refuses {source : String} {x : Scanner} (h : Reaches (begin source.toList) x)
    {fault : Fault} (fails : x.turn = .fails fault) :
    Miaou.tokenize source = .error fault ∧
      ∀ (c : Catalog) (file : String), c.WordsScripts →
        ∃ d, c.tokenize file source = .rejected d ∧ d.code = fault.cause.code ∧
          d.position = fault.position ∧ d.text = fault.text := by
  have refused := h.tokenize.trans (remaining_fails fails h.placed)
  refine ⟨refused, fun c file words => ?_⟩
  obtain ⟨definition, found, rejected⟩ := words.verdict fault
  rw [← refused] at rejected
  exact ⟨_, rejected, Catalog.get?_code found, rfl, rfl⟩

/-- Every run of digits the scanner meets is read whole. Unless a point and a digit follow, it is
one token with its value, or it is refused where it begins, just as reading it digit by digit in
words of 64 bits with a sign gives its value or nothing; and a number with a fraction is never
refused. -/
theorem integer_exact {source : String} {x : Scanner} {run rest : List Char}
    (reached : Reaches (begin source.toList) x) (meets : x.Meets run rest) :
    source.toList = x.done ++ run ++ rest ∧ (∀ c ∈ x.done.getLast?, c.isDigit = false) ∧
    ((∀ c more, rest = '.' :: c :: more → c.isDigit = false) →
      (Digits.value run ≤ 9223372036854775807 →
        Digits.word? 9223372036854775807 run = some (Digits.value run) ∧
        Advances source x (x.behind run rest (.int (Digits.value run)))) ∧
      (9223372036854775807 < Digits.value run →
        Digits.word? 9223372036854775807 run = none ∧
        tokenize source = .error ⟨.overflow, x.position, String.ofList run⟩ ∧
        ∀ (c : Catalog) (file : String), c.WordsScripts →
          ∃ d, c.tokenize file source = .rejected d ∧ d.code.text = "E501" ∧
            d.position = x.position ∧ d.text = String.ofList run)) ∧
    ∀ c more, rest = '.' :: c :: more → c.isDigit = true →
      ∃ part left, rest = '.' :: (part ++ left) ∧ part ≠ [] ∧ (∀ d ∈ part, d.isDigit = true) ∧
        (∀ d ∈ left.head?, d.isDigit = false) ∧
        Advances source x (x.behind (run ++ '.' :: part) left
          (.float (.ofDecimal false (Digits.value (run ++ part)) (-part.length)))) := by
  have place : source.toList = x.done ++ run ++ rest := by
    rw [List.append_assoc, ← meets.text, reached.whole]
  have ends : 9223372036854775807 = largest := rfl
  rw [ends]
  refine ⟨place, meets.parted reached.parted, fun plain => ⟨fun small => ?_, fun large => ?_⟩, ?_⟩
  · exact ⟨(Digits.word?_eq largest run).trans (if_pos small),
      reached.advances (meets.turn_small (fraction_eq_nil_iff.mpr plain) small)⟩
  · obtain ⟨refused, told⟩ :=
      reached.refuses (meets.turn_large (fraction_eq_nil_iff.mpr plain) large)
    refine ⟨(Digits.word?_eq largest run).trans (if_neg (Nat.not_le.mpr large)), refused,
      fun c file words => ?_⟩
    obtain ⟨d, rejected, code, place, text⟩ := told c file words
    refine ⟨d, rejected, ?_, place, text⟩
    rw [code, Cause.code]
    decide
  · rintro c more same digit
    have ne : fraction rest ≠ [] := by
      intro none
      rw [fraction_eq_nil_iff.mp none c more same] at digit
      cases digit
    obtain ⟨left, cut, stop⟩ := fraction_eq ne
    exact ⟨_, left, cut, ne, fraction_digits rest, stop,
      reached.advances (meets.turn_fraction cut ne (fraction_digits rest) stop)⟩

/-- A zero before the digits does not change the limit, a sign is no part of the number, and a point
before a letter is none either. -/
theorem integer_exact_signed :
    ∃ x : Scanner, Reaches (begin "-09223372036854775808.x".toList) x ∧
      x.Meets "09223372036854775808".toList ['.', 'x'] ∧
      tokenize "-09223372036854775808.x" =
        .error ⟨.overflow, ⟨1, 2⟩, "09223372036854775808"⟩ := by
  have content : Goes (begin "-09223372036854775808.x".toList)
      ⟨[], "-09223372036854775808.x".toList, false, [], []⟩ := by
    decide +kernel
  have sign : Goes ⟨[], "-09223372036854775808.x".toList, false, [], []⟩
      ⟨['-'], "09223372036854775808.x".toList, false, [],
        [⟨.symbol .minus, .str "-", ⟨1, 1⟩⟩]⟩ := by
    decide +kernel
  have reached := Relation.ReflTransGen.head content (.single sign)
  have meets : Meets ⟨['-'], "09223372036854775808.x".toList, false, [],
      [⟨.symbol .minus, .str "-", ⟨1, 1⟩⟩]⟩ "09223372036854775808".toList ['.', 'x'] :=
    ⟨rfl, by decide +kernel, by decide +kernel, List.all_eq_true.mp (by decide +kernel),
      stops_cons.mpr rfl⟩
  have plain : ∀ c more, ['.', 'x'] = '.' :: c :: more → c.isDigit = false := by
    rintro c more same
    cases same
    decide
  obtain ⟨-, -, read, -⟩ := integer_exact reached meets
  exact ⟨_, reached, meets, ((read plain).2 (by decide +kernel)).2.1⟩

end Scanner

end Miaou
