import Miaou.Proofs.Diagnostic.Place
import Miaou.Proofs.Token.Origin
import Miaou.Proofs.Token.Span

/-!
What a diagnostic of the parser quotes. The quoted text is rendered from the token at fault: a
name, a single keyword or a symbol is quoted as it is written, the layout is not quoted, and the
other tokens are quoted in a usual form, which need not be how they are written.
-/

namespace Miaou

/-- How a token of this kind that is written `span` is quoted. -/
inductive Rendered : Kind → (span : List Char) → (text : String) → Prop where
  | verbatim {kind : Kind} {span : List Char} (other : kind ∉ [Kind.string, .number, .boolean]) :
      Rendered kind span (String.ofList span)
  /-- In small letters. -/
  | truth {span : List Char} : Rendered .boolean span (Lexeme.lowered span)
  /-- In small letters, with one space between the words. -/
  | compound {keyword : Keyword} {first blanks second : List Char}
      (pair : keyword ∈ [Keyword.sinonSi, .tantQue, .pourChaque]) (blank : Piece.Blanks blanks) :
      Rendered (.keyword keyword) (first ++ (blanks ++ second))
        (Lexeme.lowered first ++ " " ++ Lexeme.lowered second)
  /-- Without zeros in front. -/
  | integer {span : List Char} (digits : ∀ d ∈ span, d.isDigit = true) :
      Rendered .number span (Digits.text (Digits.value span))
  /-- The shortest decimal of the number that is meant. -/
  | decimal {whole part : List Char}
      (digits : ∀ d ∈ whole ++ part, d.isDigit = true) :
      Rendered .number (whole ++ '.' :: part)
        (NumberStyle.word.text (.ofDecimal false (Digits.value (whole ++ part)) (-part.length)))
  /-- What the string stands for, without its quotes. -/
  | string {quote : Char} {span value : List Char}
      (read : Lexeme.quoted? quote span = some (value, span.length)) :
      Rendered .string (quote :: span) (String.ofList value)

namespace Lexeme

open Text

theorem fused?_rendered {word rest : List Char} {l : Lexeme} (h : fused? word rest = some l) :
    Rendered l.kind ((word ++ rest).take l.size) l.payload.lexeme := by
  obtain ⟨blanks, next, more, keyword, spelling, rfl, blank, -, -, -, compound, rfl⟩ :=
    fused?_eq_some h
  obtain ⟨pair, spelled⟩ : keyword ∈ [Keyword.sinonSi, .tantQue, .pourChaque] ∧
      spelling = lowered word ++ " " ++ lowered next := by
    generalize lowered next = second at compound
    unfold compound? at compound
    split at compound <;> cases compound <;> rename_i first <;> rw [first] <;>
      exact ⟨by decide, rfl⟩
  have taken : (word ++ (blanks ++ (next ++ more))).take
      (word.length + blanks.length + next.length) = word ++ (blanks ++ next) := by
    rw [Nat.add_assoc, List.take_length_add_append, List.take_length_add_append, List.take_left]
  simp only [taken, spelled, Payload.lexeme]
  exact .compound pair blank

theorem ofWord_rendered (word rest : List Char) :
    Rendered (ofWord word rest).kind ((word ++ rest).take (ofWord word rest).size)
      (ofWord word rest).payload.lexeme := by
  cases reserved : Kind.ofWord? (lowered word) with
  | none =>
    rw [Piece.ofWord_name reserved, List.take_left]
    exact @Rendered.verbatim .identifier word (by decide)
  | some kind =>
    have listed := mem_reserved reserved
    by_cases truth : kind = .boolean
    · subst truth
      have truths : ∀ entry ∈ Kind.reserved, entry.2 = .boolean →
          (Payload.bool (entry.1 = "vrai")).lexeme = entry.1 := by decide
      rw [ofWord, reserved]
      simp only [List.take_left, truths _ listed rfl]
      exact .truth
    · have words : ∀ entry ∈ Kind.reserved, entry.2 ∉ [Kind.string, .number] := by decide
      cases fused : fused? word rest with
      | some l =>
        rw [Piece.ofWord_fused reserved truth fused]
        exact fused?_rendered fused
      | none =>
        rw [Piece.ofWord_reserved reserved truth fused, List.take_left]
        refine .verbatim ?_
        have word := words _ listed
        simp only [List.mem_cons, List.not_mem_nil, or_false, not_or] at word ⊢
        exact ⟨word.1, word.2, truth⟩

theorem ofNumber_rendered {whole rest : List Char} {l : Lexeme}
    (digits : ∀ d ∈ whole, d.isDigit = true) (read : ofNumber whole (fraction rest) = .ok l) :
    Rendered l.kind (whole ++ if fraction rest = [] then [] else '.' :: fraction rest)
      l.payload.lexeme := by
  unfold ofNumber at read
  by_cases none : fraction rest = []
  · rw [if_neg (not_not.mpr none)] at read
    split at read <;> cases read
    rw [if_pos none, List.append_nil]
    exact .integer digits
  · rw [if_pos none] at read
    cases read
    rw [if_neg none]
    exact .decimal (List.forall_mem_append.mpr ⟨digits, fraction_digits rest⟩)

theorem read_rendered {c : Char} {cs : List Char} {l : Lexeme} (h : read c cs = .ok l) :
    Rendered l.kind ((c :: cs).take l.size) l.payload.lexeme := by
  rcases read_cases h with ⟨-, h⟩ | ⟨-, h⟩ | ⟨-, rfl⟩ | ⟨-, h⟩
  · unfold readString at h
    split at h <;> cases h
    rename_i value n found
    have again := quoted?_take found []
    rw [List.append_nil] at again
    refine .string (again.trans ?_)
    rw [List.length_take_of_le (quoted?_size_le found)]
  · obtain ⟨whole, rest, same, digits, -, read, taken⟩ := readNumber_split h
    rw [taken]
    exact ofNumber_rendered digits read
  · have rendered := ofWord_rendered ((c :: cs).takeWhile continuesWord)
      ((c :: cs).dropWhile continuesWord)
    rw [List.takeWhile_append_dropWhile] at rendered
    exact rendered
  · obtain ⟨sign, rest, rfl, spelled, -⟩ := readSymbol_split h
    have taken : (c :: cs).take sign.text.length = sign.text.toList := by
      rw [spelled, ← String.length_toList, List.take_left]
    simp only [taken, Payload.lexeme]
    have verbatim := @Rendered.verbatim (.symbol sign) sign.text.toList (by simp)
    rwa [String.ofList_toList] at verbatim

end Lexeme

/-- What a diagnostic of the parser quotes is rendered from the text that stands where it is
placed, which is read as the token at fault; for the layout it quotes nothing. -/
theorem Catalog.parse_quoted {c : Catalog} {file source : String} {ts : List Token}
    {d : Diagnostic} (tokens : Miaou.tokenize source = .ok ts)
    (h : c.parse file source = .rejected d) :
    ∃ t ∈ ts, d.position = t.position ∧
      (t.kind.isLayout = true ∧ d.text = "" ∨
        ∃ span, span <+: source.toList.drop (d.position.offset source.toList) ∧
          Miaou.tokenize (String.ofList span) =
            .ok [⟨t.kind, t.payload, .start⟩, .eof (Position.start.after span)] ∧
          Rendered t.kind span d.text) := by
  obtain ⟨fault, definition, refused, -, rfl⟩ := verdict_rejected h
  rcases parse_error refused with broken | ⟨ts', t, tokens', member, place, text⟩
  · rw [tokens] at broken
    cases broken
  rw [tokens] at tokens'
  cases tokens'
  refine ⟨t, member, place, ?_⟩
  change t.kind.isLayout = true ∧ fault.text = "" ∨ ∃ span,
    span <+: source.toList.drop (fault.position.offset source.toList) ∧ _ ∧
      Rendered t.kind span fault.text
  rw [place, text, Token.lexeme]
  rcases tokenize_found tokens member with mark | ⟨done, c, rest, l, here, begins, read, rfl⟩
  · exact .inl ⟨mark, if_pos mark⟩
  · obtain ⟨-, -, drop⟩ := Position.cut_offset here rfl
    rw [drop, if_neg (by simp [Lexeme.read_isLayout read])]
    exact .inr ⟨(c :: rest).take l.size, List.take_prefix _ _, Span.tokenize_lexeme begins read,
      Lexeme.read_rendered read⟩

theorem Catalog.parse_quoted_truth :
    ∃ ts d, Miaou.tokenize "VRAI" = .ok ts ∧ standard.parse "chat.miaou" "VRAI" = .rejected d ∧
      d.text = "vrai" ∧ ∃ t ∈ ts, d.position = t.position ∧
        ∃ span, span <+: "VRAI".toList.drop (d.position.offset "VRAI".toList) ∧
          Rendered t.kind span d.text := by
  have read : Miaou.tokenize "VRAI" =
      .ok [⟨.boolean, .bool true, ⟨1, 1⟩⟩, .eof ⟨1, 5⟩] := by decide +kernel
  have refused : Miaou.parse "VRAI" = .error ⟨.missingMiaou, ⟨1, 1⟩, "vrai"⟩ :=
    eq_error_of_map (by decide +kernel)
  obtain ⟨definition, -, rejected⟩ := standard_wordsScripts.verdict _
  rw [← refused] at rejected
  obtain ⟨t, member, place, ⟨-, none⟩ | ⟨span, stands, -, rendered⟩⟩ := parse_quoted read rejected
  · change "vrai" = "" at none
    exact absurd none (by decide)
  · exact ⟨_, _, read, rejected, rfl, t, member, place, span, stands, rendered⟩

theorem Catalog.parse_misquotes :
    ∃ ts d, Miaou.tokenize "\"a\"" = .ok ts ∧
      standard.parse "chat.miaou" "\"a\"" = .rejected d ∧
      ¬ d.text.toList <+: "\"a\"".toList.drop (d.position.offset "\"a\"".toList) := by
  have read : Miaou.tokenize "\"a\"" =
      .ok [⟨.string, .str "a", ⟨1, 1⟩⟩, .eof ⟨1, 4⟩] := by decide +kernel
  have refused : Miaou.parse "\"a\"" = .error ⟨.missingMiaou, ⟨1, 1⟩, "a"⟩ :=
    eq_error_of_map (by decide +kernel)
  obtain ⟨definition, -, rejected⟩ := standard_wordsScripts.verdict _
  rw [← refused] at rejected
  refine ⟨_, _, read, rejected, ?_⟩
  change ¬ "a".toList <+: "\"a\"".toList.drop (Position.offset ⟨1, 1⟩ "\"a\"".toList)
  decide

end Miaou
