import Miaou.Diagnostic.Report
import Miaou.Proofs.Diagnostic.Wording
import Miaou.Proofs.Token.Misreading
import Miaou.Proofs.Token.Span

/-!
A diagnostic of the lexer points at the fault. Its place is an offset in the script, up to which
the script is shared out among its tokens; the text it quotes stands there, and what stands there
is what the code says: a string without an end, a number that is too large, or a character that
begins no token.
-/

namespace Miaou

theorem Report.extent_text {d : Diagnostic} {cs : List Char}
    (inside : d.position.offset cs ≤ cs.length)
    (quotes : d.text.toList <+: cs.drop (d.position.offset cs)) (ne : d.text ≠ "") :
    (cs.take (extent d cs).2).drop (extent d cs).1 = d.text.toList := by
  have filled : 0 < d.text.length :=
    Nat.pos_of_ne_zero fun none => ne (String.length_eq_zero_iff.mp none)
  have fits := quotes.length_le
  rw [List.length_drop, String.length_toList] at fits
  have stop : (extent d cs).2 = d.position.offset cs + d.text.length := by
    simp only [extent]
    omega
  rw [stop, List.drop_take, extent, Nat.add_sub_cancel_left, ← String.length_toList]
  exact List.prefix_iff_eq_take.mp quotes |>.symm

namespace Piece

theorem gap_reached {origin fresh : Bool} {done rest gap : List Char} {pieces behind : List Piece}
    {piece : Piece} (h : Scan fresh done rest pieces) (next : pieces = piece :: behind)
    (other : piece.token? = none) (open' : Span.Pending origin fresh gap) :
    ∃ part after, rest = part ++ after ∧ piece.position = Position.start.after (done ++ part) ∧
      Span.Gap origin false (gap ++ part) := by
  induction h generalizing gap with
  | finish idle => cases next
  | @idle done line rest pieces idle more ih =>
    obtain ⟨part, after, rfl, here, reached⟩ := ih next (Span.pending_idle open' idle)
    exact ⟨line ++ '\n' :: part, after, by simp, by simpa using here, by simpa using reached⟩
  | content blank begins more =>
    cases next
    exact ⟨_, _, rfl, rfl, Span.gap_token open' blank⟩
  | newline idle more =>
    cases next
    cases other
  | token blank begins read more =>
    cases next
    cases other
  | broken blank begins read =>
    cases next
    exact ⟨_, _, rfl, rfl, Span.gap_token open' blank⟩

theorem ofScript_reached {cs : List Char} {piece : Piece} (found : piece ∈ ofScript cs)
    (other : piece.token? = none) :
    ∃ spans gap after, cs = spans.flatMap Span.chars ++ gap ++ after ∧
      piece.position = Position.start.after (spans.flatMap Span.chars ++ gap) ∧
      Span.Tiles true [] spans ∧ Span.Gap (Span.lineBegins spans) false gap := by
  obtain ⟨before, behind, cut⟩ := List.append_of_mem found
  obtain ⟨spans, gap, fresh, rest, same, -, tiles, open', scan⟩ :=
    Span.scan_splits (scan_ofScript cs) cut (fun none => nomatch none) [] [] rfl
      (Span.pending_nil true)
  obtain ⟨part, after, rfl, here, reached⟩ := gap_reached scan rfl other open'
  refine ⟨spans, gap ++ part, after, by simpa using same, by simpa using here, tiles, ?_⟩
  cases spans with
  | nil => exact reached
  | cons s ss => simpa using reached

theorem parted_blanks {done blanks rest : List Char} (blank : Blanks blanks)
    (h : Text.Parted Char.isDigit done (blanks ++ rest)) :
    Text.Parted Char.isDigit (done ++ blanks) rest := by
  by_cases none : blanks = []
  · simpa [none] using h
  · refine Text.parted_append (fun c hc digit => ?_) none _
    have inline := blank c (List.mem_of_getLast? hc)
    rw [Lexeme.isInline_of_continuesWord (Lexeme.continuesWord_of_isDigit digit)] at inline
    cases inline

theorem scan_parted {fresh : Bool} {done rest : List Char} {pieces : List Piece}
    (h : Scan fresh done rest pieces) (parted : Text.Parted Char.isDigit done rest) {fault : Fault}
    (found : .broken fault ∈ pieces) :
    ∃ before after, done ++ rest = before ++ after ∧
      fault.position = Position.start.after before ∧ Text.Parted Char.isDigit before after := by
  -- A step ends behind a line feed, behind blanks or behind a lexeme, and only a lexeme can end
  -- with a digit.
  induction h with
  | finish idle => cases found
  | idle idle more ih => simpa using ih (Text.parted_concat rfl _ _) found
  | content blank begins more ih =>
    simpa using ih (parted_blanks blank parted) (by simpa using found)
  | newline idle more ih => simpa using ih (Text.parted_concat rfl _ _) (by simpa using found)
  | token blank begins read more ih =>
    have further := ih (Text.parted_append (Lexeme.read_parted read) (Lexeme.take_ne_nil read) _)
    simpa using further (by simpa using found)
  | broken blank begins read =>
    cases List.mem_singleton.mp found
    exact ⟨_, _, (List.append_assoc ..).symm, rfl, parted_blanks blank parted⟩

end Piece

/-- A diagnostic that points at a fault of the lexer in the text `cs`. -/
structure Pointed (cs : List Char) (d : Diagnostic) : Prop where
  code : d.code.text ∈ ["E100", "E101", "E103", "E501"]
  inside : d.position.offset cs ≤ cs.length
  quotes : d.text.toList <+: cs.drop (d.position.offset cs)
  underlines : d.text ≠ "" →
    (cs.take (Report.extent d cs).2).drop (Report.extent d cs).1 = d.text.toList
  /-- Up to the fault the text is shared out among its tokens. -/
  reaches : ∃ spans gap, cs.take (d.position.offset cs) = spans.flatMap Span.chars ++ gap ∧
    Span.Tiles true [] spans ∧ Span.Gap (Span.lineBegins spans) false gap
  string : d.code.text = "E101" → ∃ quote rest, (quote = '"' ∨ quote = '\'') ∧
    cs.drop (d.position.offset cs) = quote :: rest ∧ Lexeme.Unclosed quote rest
  /-- The run of digits is whole, none follow behind a point, and its value takes more than 64 bits
  with a sign. -/
  number : d.code.text = "E501" → ∃ run rest, cs.drop (d.position.offset cs) = run ++ rest ∧
    d.text = String.ofList run ∧ run ≠ [] ∧ (∀ c ∈ run, c.isDigit = true) ∧
    (∀ c ∈ (cs.take (d.position.offset cs)).getLast?, c.isDigit = false) ∧
    (∀ c ∈ rest.head?, c.isDigit = false) ∧
    (∀ c more, rest = '.' :: c :: more → c.isDigit = false) ∧ 9223372036854775807 < Digits.value run
  character : d.code.text = "E100" → ∃ c rest, cs.drop (d.position.offset cs) = c :: rest ∧
    (Piece.Begins c ∧ (∀ rest l, Lexeme.read c rest ≠ .ok l) ∨ c = '!' ∧ rest.head? ≠ some '=')

namespace Lexeme

theorem isDigit_of_fraction {c : Char} {cs : List Char} (h : fraction ('.' :: c :: cs) = []) :
    c.isDigit = false := by
  by_contra digit
  have taken : fraction ('.' :: c :: cs) = c :: cs.takeWhile Char.isDigit :=
    List.takeWhile_cons_of_pos (by simpa using digit)
  rw [taken] at h
  cases h

variable {c : Char} {cs : List Char} {e : Misreading}

theorem Refused.text_prefix (h : Refused c cs e) : e.text <+: c :: cs := by
  cases h with
  | string => exact ⟨cs, rfl⟩
  | number digit whole => exact ⟨_, whole.symm⟩
  | symbol => exact ⟨cs, rfl⟩

theorem Refused.code_text (h : Refused c cs e) :
    e.cause.code.text ∈ ["E100", "E101", "E103", "E501"] := by
  cases h <;> simp only [Cause.code] <;> decide

theorem Refused.unclosed (h : Refused c cs e) (code : e.cause.code = .unterminatedString) :
    (c = '"' ∨ c = '\'') ∧ Unclosed c cs := by
  cases h with
  | string quote unclosed => exact ⟨quote, unclosed⟩
  | number => cases code
  | symbol => cases code

theorem Refused.large (h : Refused c cs e) (code : e.cause.code = .valueOverflow) :
    c.isDigit = true ∧ ∃ rest, c :: cs = e.text ++ rest ∧ e.text ≠ [] ∧
      (∀ d ∈ e.text, d.isDigit = true) ∧ (∀ d ∈ rest.head?, d.isDigit = false) ∧
      (∀ d more, rest = '.' :: d :: more → d.isDigit = false) ∧
      9223372036854775807 < Digits.value e.text := by
  cases h with
  | string => cases code
  | @number run rest digit whole digits ended integer large =>
    refine ⟨digit, rest, whole, ?_, digits, ended, ?_, large⟩
    · rintro rfl
      cases whole
      exact absurd digit (by simp [Text.stops_cons.mp ended])
    · rintro d more rfl
      exact isDigit_of_fraction integer
  | symbol => cases code

theorem Refused.unknown (h : Refused c cs e) (code : e.cause.code = .unknownInstruction) :
    (∀ rest l, read c rest ≠ .ok l) ∨ c = '!' ∧ cs.head? ≠ some '=' := by
  cases h with
  | string => cases code
  | number => cases code
  | symbol other => exact other

end Lexeme

theorem Piece.ofScript_broken {cs : List Char} {fault : Fault}
    (found : .broken fault ∈ ofScript cs) :
    ∃ c rest, cs.drop (fault.position.offset cs) = c :: rest ∧ Begins c ∧
      Lexeme.Refused c rest ⟨fault.cause, fault.text.toList⟩ ∧
      Text.Parted Char.isDigit (cs.take (fault.position.offset cs)) (c :: rest) := by
  obtain ⟨before, after, same, here, parted⟩ :=
    scan_parted (scan_ofScript cs) (Text.parted_nil _ _) found
  rw [List.nil_append] at same
  obtain ⟨-, done, left⟩ := Position.cut_offset same here
  cases ofScript_found cs _ found with
  | @broken _ rest c e place begins read =>
    obtain ⟨-, -, drop⟩ := Position.cut_offset place rfl
    refine ⟨c, rest, drop, begins, ?_, ?_⟩
    · rw [String.toList_ofList]
      exact Lexeme.read_refused read
    · rw [done, ← drop, left]
      exact parted

namespace Fault

variable {cs : List Char} {definition : Definition}

theorem pointed_content {width : Nat} {first : Position}
    (found : .content width first ∈ Piece.ofScript cs)
    (code : definition.code = Cause.badIndentation.code) (file : String) (lines : List String) :
    Pointed cs ((⟨.badIndentation, first, ""⟩ : Fault).diagnostic definition file lines) := by
  obtain ⟨spans, gap, after, same, here, tiles, reached⟩ := Piece.ofScript_reached found rfl
  obtain ⟨inside, before, -⟩ := Position.cut_offset same here
  have told {other : Code} (h : definition.code.text = other.text) : .badIndentation = other :=
    code.symm.trans (Code.text_injective h)
  refine ⟨?_, inside, List.nil_prefix, fun ne => absurd rfl ne,
    ⟨spans, gap, before, tiles, reached⟩, fun string => ?_, fun number => ?_, fun character => ?_⟩
  · change definition.code.text ∈ _
    rw [code]
    decide
  · cases @told .unterminatedString string
  · cases @told .valueOverflow number
  · cases @told .unknownInstruction character

theorem pointed_broken {fault : Fault} (found : .broken fault ∈ Piece.ofScript cs)
    (code : definition.code = fault.cause.code) (file : String) (lines : List String) :
    Pointed cs (fault.diagnostic definition file lines) := by
  obtain ⟨spans, gap, after, same, here, tiles, reached⟩ := Piece.ofScript_reached found rfl
  obtain ⟨inside, before, -⟩ := Position.cut_offset same here
  obtain ⟨c, rest, drop, begins, refused, parted⟩ := Piece.ofScript_broken found
  have told {other : Code} (h : definition.code.text = other.text) : fault.cause.code = other :=
    code.symm.trans (Code.text_injective h)
  have quotes : fault.text.toList <+: cs.drop (fault.position.offset cs) :=
    drop ▸ refused.text_prefix
  refine ⟨?_, inside, quotes, Report.extent_text inside quotes,
    ⟨spans, gap, before, tiles, reached⟩, fun string => ?_, fun number => ?_, fun character => ?_⟩
  · change definition.code.text ∈ _
    rw [code]
    exact refused.code_text
  · obtain ⟨quote, unclosed⟩ := refused.unclosed (told string)
    exact ⟨c, rest, quote, drop, unclosed⟩
  · obtain ⟨digit, more, whole, ne, digits, ended, integer, large⟩ := refused.large (told number)
    refine ⟨_, more, drop.trans whole, String.ofList_toList.symm, ne, digits, ?_, ended, integer,
      large⟩
    intro d hd
    by_contra another
    have stop := parted d hd (by simpa using another)
    exact absurd digit (by simp [Text.stops_cons.mp stop])
  · exact ⟨c, rest, drop, (refused.unknown (told character)).imp_left fun none => ⟨begins, none⟩⟩

end Fault

/-- Every diagnostic of the lexer points at its fault. -/
theorem Catalog.tokenize_pointed {c : Catalog} {file source : String} {d : Diagnostic}
    (h : c.tokenize file source = .rejected d) : Pointed source.toList d := by
  obtain ⟨fault, definition, refused, found, rfl⟩ := verdict_rejected h
  rcases Layout.tokens_error refused with broken | ⟨width, first, content, rfl⟩
  · exact Fault.pointed_broken broken (get?_code found) file _
  · exact Fault.pointed_content content (get?_code found) file _

theorem Catalog.tokenize_pointed_escaped :
    ∃ d, standard.tokenize "chat.miaou" "x = 'l\\'eau" = .rejected d ∧ d.position = ⟨1, 5⟩ ∧
      d.text = "'" ∧ Pointed "x = 'l\\'eau".toList d := by
  have refused : Miaou.tokenize "x = 'l\\'eau" = .error ⟨.unclosedString, ⟨1, 5⟩, "'"⟩ := by
    decide +kernel
  obtain ⟨definition, -, rejected⟩ := standard_wordsScripts.verdict _
  rw [← refused] at rejected
  exact ⟨_, rejected, rfl, rfl, tokenize_pointed rejected⟩

end Miaou
