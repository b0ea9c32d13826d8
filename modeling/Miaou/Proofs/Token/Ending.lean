import Miaou.Proofs.Token.Lexeme

/-!
A lexeme looks no further than the line it stands on. What comes behind the end of the line, and
the blanks right before that end, can be left out and the same lexeme is read, or the same fault is
found; only a string goes on across the end of a line, and it looks at nothing behind its quote.
-/

namespace Miaou.Lexeme

open Text

/-- Nothing but blanks stands before the end of the line or of the text. -/
def EndsLine (cs : List Char) : Prop := ∀ c ∈ (cs.dropWhile isInline).head?, c = '\n'

theorem endsLine_newline (cs : List Char) : EndsLine ('\n' :: cs) := by
  rintro c ⟨⟩
  rfl

theorem endsLine_blank {c : Char} (blank : isInline c = true) {cs : List Char}
    (h : EndsLine cs) : EndsLine (c :: cs) := by
  rwa [EndsLine, List.dropWhile_cons_of_pos blank]

theorem EndsLine.stops {cs : List Char} (h : EndsLine cs) {p : Char → Bool}
    (blank : ∀ c, isInline c = true → p c = false) (feed : p '\n' = false) : Stops p cs := by
  cases cs with
  | nil => exact stops_nil p
  | cons c cs =>
    refine stops_cons.mpr ?_
    by_cases inline : isInline c = true
    · exact blank c inline
    · rw [EndsLine, List.dropWhile_cons_of_neg inline] at h
      rw [h c rfl]
      exact feed

theorem isInline_cases {c : Char} (h : isInline c = true) : c = ' ' ∨ c = '\t' ∨ c = '\r' := by
  simpa [isInline, or_assoc] using h

theorem continuesWord_of_isInline (c : Char) (h : isInline c = true) : continuesWord c = false := by
  rcases isInline_cases h with rfl | rfl | rfl <;> decide

theorem isDigit_of_isInline (c : Char) (h : isInline c = true) : c.isDigit = false := by
  rcases isInline_cases h with rfl | rfl | rfl <;> decide

variable {ending : List Char}

theorem fraction_append (h : EndsLine ending) (cs : List Char) :
    fraction (cs ++ ending) = fraction cs := by
  cases cs with
  | nil =>
    refine fraction_eq_nil_of_stops (h.stops (fun c blank => ?_) rfl)
    rcases isInline_cases blank with rfl | rfl | rfl <;> decide
  | cons c cs =>
    by_cases point : c = '.'
    · subst point
      exact takeWhile_append_stops (h.stops isDigit_of_isInline rfl) cs
    · have other (ds : List Char) : fraction (c :: ds) = [] :=
        fraction_eq_nil_of_stops (by simpa using point)
      rw [List.cons_append, other, other]

theorem readNumber_append (h : EndsLine ending) (cs : List Char) :
    readNumber (cs ++ ending) = readNumber cs := by
  have stop := h.stops isDigit_of_isInline rfl
  rw [readNumber, takeWhile_append_stops stop, dropWhile_append_stops stop, fraction_append h,
    readNumber]

theorem fused?_append (h : EndsLine ending) (word cs : List Char) :
    fused? word (cs ++ ending) = fused? word cs := by
  obtain ⟨blanks, body, rfl, blank, stop⟩ := exists_run isInline cs
  cases body with
  | nil =>
    -- Nothing but blanks is left of the line, so the next word is empty on both sides.
    have ended : ((blanks ++ [] ++ ending).dropWhile isInline).takeWhile continuesWord = [] := by
      rw [List.append_nil, List.dropWhile_append_of_pos blank]
      cases behind : ending.dropWhile isInline with
      | nil => rfl
      | cons c cs =>
        have feed : c = '\n' := h c (by rw [behind]; rfl)
        exact List.takeWhile_cons_of_neg (by rw [feed]; decide)
    have ended' : ((blanks ++ []).dropWhile isInline).takeWhile continuesWord = [] := by
      rw [List.dropWhile_append_of_pos blank]
      rfl
    unfold fused?
    simp only [ended, ended']
    cases compound : compound? (lowered word) with
    | none => rfl
    | some found =>
      obtain ⟨second, keyword, spelling⟩ := found
      have other : lowered [] ≠ second := (compound?_second compound).symm
      simp [other]
  | cons c body =>
    have stop' : Stops isInline (c :: body ++ ending) := stops_cons.mpr (stops_cons.mp stop)
    have next := takeWhile_append_stops (h.stops continuesWord_of_isInline (by decide)) (c :: body)
    unfold fused?
    rw [List.append_assoc, takeWhile_run blank stop', dropWhile_run blank stop', next,
      takeWhile_run blank stop, dropWhile_run blank stop]

theorem readWord_append (h : EndsLine ending) (cs : List Char) :
    readWord (cs ++ ending) = readWord cs := by
  have stop := h.stops continuesWord_of_isInline (by decide)
  rw [readWord, takeWhile_append_stops stop, dropWhile_append_stops stop, readWord]
  unfold ofWord
  rw [fused?_append h]

theorem symbol?_longest {cs : List Char} {sign : Symbol} (h : symbol? cs = some sign) :
    ∃ rest, cs = sign.text.toList ++ rest ∧ Stops (grows sign) rest := by
  have alone {d : Char} {p : Char → Bool} {tail : List Char} (same : ∀ c, p c = decide (c = d))
      (other : ∀ more, tail = d :: more → False) : Stops p tail := by
    cases tail with
    | nil => exact stops_nil p
    | cons c cs =>
      exact stops_cons.mpr ((same c).trans (decide_eq_false fun e => other cs (e ▸ rfl)))
  unfold symbol? at h
  split at h <;> cases h <;>
    first
    | exact ⟨_, rfl, fun _ _ => rfl⟩
    | exact ⟨_, rfl, alone (fun _ => rfl) ‹_›⟩

theorem grows_of_isInline (sign : Symbol) (c : Char) (h : isInline c = true) :
    grows sign c = false := by
  rcases isInline_cases h with rfl | rfl | rfl <;> cases sign <;> decide

def doubles (c : Char) : Bool := c = '*' || c = '/' || c = '='

theorem doubles_of_isInline (c : Char) (h : isInline c = true) : doubles c = false := by
  rcases isInline_cases h with rfl | rfl | rfl <;> decide

theorem symbol?_append (h : EndsLine ending) (c : Char) (cs : List Char) :
    symbol? (c :: (cs ++ ending)) = symbol? (c :: cs) := by
  have inside {sign : Symbol} : Stops (grows sign) ending :=
    h.stops (grows_of_isInline sign) (by cases sign <;> decide)
  cases found : symbol? (c :: cs) with
  | some sign =>
    obtain ⟨rest, spelled, stop⟩ := symbol?_longest found
    rw [← List.cons_append, spelled, List.append_assoc]
    refine symbol?_spelled sign ?_
    by_cases none : rest = []
    · rw [none]
      exact inside
    · exact stops_append stop none
  | none =>
    by_contra some
    obtain ⟨sign, found'⟩ := Option.ne_none_iff_exists'.mp some
    obtain ⟨rest, spelled, stop⟩ := symbol?_longest found'
    rw [← List.cons_append] at spelled
    rcases List.append_eq_append_iff.mp spelled with ⟨tail, whole, rfl⟩ | ⟨tail, whole, rfl⟩
    · -- The symbol would go on behind the end of the line.
      cases tail with
      | nil =>
        rw [List.append_nil] at whole
        have again := symbol?_spelled sign (stops_nil _)
        rw [whole, List.append_nil, found] at again
        cases again
      | cons d ds =>
        have second : sign.text.toList.tail.all doubles = true := by cases sign <;> decide
        have plain := stops_cons.mp
          (h.stops doubles_of_isInline (by decide) : Stops doubles (d :: (ds ++ rest)))
        rw [List.all_eq_true.mp second d (by rw [whole]; simp)] at plain
        cases plain
    · rw [whole, symbol?_spelled sign (stops_of_append stop)] at found
      cases found

theorem readSymbol_append (h : EndsLine ending) (c : Char) (cs : List Char) :
    readSymbol c (cs ++ ending) = readSymbol c cs := by
  rw [readSymbol, symbol?_append h, readSymbol]

theorem read_append (h : EndsLine ending) {c : Char} (plain : ¬(c = '"' ∨ c = '\''))
    (cs : List Char) : read c (cs ++ ending) = read c cs := by
  rw [not_or] at plain
  have number := readNumber_append h (c :: cs)
  have word := readWord_append h (c :: cs)
  rw [List.cons_append] at number word
  simp only [read, plain.1, plain.2, decide_false, Bool.or_self, Bool.false_eq_true, if_false,
    number, word, readSymbol_append h]

/-- The two texts go on alike at least to the end of the line. -/
def SameLine (cs ds : List Char) : Prop :=
  cs = ds ∨ ∃ row us vs, cs = row ++ '\n' :: us ∧ ds = row ++ '\n' :: vs

theorem read_ahead {c : Char} {taken cs ds : List Char} {l : Lexeme}
    (h : read c (taken ++ cs) = .ok l) (size : l.size = taken.length + 1)
    (same : SameLine cs ds) : read c (taken ++ ds) = .ok l := by
  by_cases quote : c = '"' ∨ c = '\''
  · rw [read_string quote] at h ⊢
    unfold readString at h
    split at h
    · rename_i value n found
      cases h
      have length : n = taken.length := Nat.succ.inj size
      have again := quoted?_take found ds
      rw [length, List.take_left, ← length] at again
      rw [readString, again]
    · cases h
  · rcases same with rfl | ⟨row, us, vs, rfl, rfl⟩
    · exact h
    · rw [← List.append_assoc, read_append (endsLine_newline us) quote] at h
      rw [← List.append_assoc, read_append (endsLine_newline vs) quote, h]

end Miaou.Lexeme
