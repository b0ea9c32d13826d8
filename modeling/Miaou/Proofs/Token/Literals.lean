import Miaou.Proofs.Number.Magnitude
import Miaou.Proofs.Text.Letters
import Miaou.Proofs.Token.Indented
import Miaou.Proofs.Token.Origin
import Miaou.Proofs.Token.Scanner

/-!
Literals and their printed text. A text that is read as one token whatever follows is that token
when it stands alone.
-/

namespace Miaou

open Text Lexeme Piece
open Grammar (literal?)

theorem tokenize_alone {text : String} {t : Token} (stands : Stands text.toList t) :
    tokenize text = .ok [t, .eof (Position.start.after text.toList)] := by
  obtain ⟨c, head, begins⟩ := stands.begins
  obtain ⟨cs, whole⟩ := List.head?_eq_some_iff.mp head
  obtain ⟨ts, pieces, same⟩ := stands.yields [] ends_nil .start
  obtain ⟨u, rfl, unplaced⟩ := List.map_eq_singleton_iff.mp same
  rw [List.append_nil, ofContent_nil, List.append_nil] at pieces
  have placed : u = t := by
    rw [whole] at pieces
    cases read : Lexeme.read c cs with
    | error e =>
      rw [ofContent_broken _ begins read] at pieces
      cases pieces
    | ok l =>
      rw [ofContent_token _ begins read] at pieces
      injection pieces with first
      injection first with same
      subst same
      rw [← unplaced, Token.unplaced, Token.relocate]
      simp [read_isLayout read]
  have line := ofLine_begins begins cs 1 0
  rw [List.replicate_zero, List.nil_append, ← whole] at line
  rw [tokenize, ofScript, line]
  change Except.map _ (Layout.tokens _ [] (ofContent .start text.toList)) = _
  rw [pieces, placed]
  rfl

/-! Strings -/

theorem script_inline (value : List Char) :
    '\n' ∉ script value ∧ '\t' ∉ script value ∧ '\r' ∉ script value := by
  have escaped (c d : Char) (member : d ∈ scriptChar c) : d ≠ '\n' ∧ d ≠ '\t' ∧ d ≠ '\r' := by
    unfold scriptChar at member
    split_ifs at member with backslash quote feed tab back
    all_goals simp only [List.mem_cons, List.not_mem_nil, or_false] at member
    case neg =>
      subst member
      exact ⟨feed, tab, back⟩
    all_goals rcases member with rfl | rfl <;> decide
  have outside (d : Char) (special : ¬(d ≠ '\n' ∧ d ≠ '\t' ∧ d ≠ '\r')) (quote : d ≠ '"') :
      d ∉ script value := by
    simp only [script, List.mem_cons, List.mem_append, List.mem_flatMap, List.not_mem_nil, or_false,
      not_or, not_exists, not_and]
    exact ⟨quote, fun c _ member => special (escaped c d member), quote⟩
  exact ⟨outside _ (by decide) (by decide), outside _ (by decide) (by decide),
    outside _ (by decide) (by decide)⟩

/-- The printed text of a string is one line without tabs and, by itself, one token of this string.
Before any other text the reader of strings takes just the printed text, and a turn of the scanner
that finds it inside a line adds the token and goes on right behind it. -/
theorem string_reread (v : String) :
    tokenize (Literal.str v).text =
      .ok [⟨.string, .str v, ⟨1, 1⟩⟩, .eof ⟨1, 1 + (Literal.str v).text.length⟩] ∧
    ('\n' ∉ (Literal.str v).text.toList ∧ '\t' ∉ (Literal.str v).text.toList ∧
      '\r' ∉ (Literal.str v).text.toList) ∧
    ∃ body, (Literal.str v).text.toList = '"' :: body ∧ ∀ r,
      Lexeme.readString '"' (body ++ r) =
        .ok ⟨.string, .str v, (Literal.str v).text.length⟩ ∧
      ('"' :: (body ++ r)).drop (Literal.str v).text.length = r ∧
      ∀ done blocks tokens,
        Scanner.turn ⟨done, '"' :: (body ++ r), false, blocks, tokens⟩ =
          .goes ⟨done ++ '"' :: body, r, false, blocks,
            tokens ++ [⟨.string, .str v, Position.start.after done⟩]⟩ := by
  have text : (Literal.str v).text.toList = script v.toList := by
    rw [Literal.text, String.toList_ofList]
  have size : (Literal.str v).text.length = (script v.toList).length := by
    rw [← text, String.length_toList]
  have inline := script_inline v.toList
  refine ⟨?_, text ▸ inline, v.toList.flatMap scriptChar ++ ['"'], text, fun r => ?_⟩
  · rw [tokenize_alone (stands_quoted v), text, Position.after_line _ inline.1, size]
    rfl
  · have read := read_script v.toList r
    rw [String.ofList_toList, ← size] at read
    refine ⟨?_, ?_, fun done blocks tokens => ?_⟩
    · rwa [Lexeme.read_string (.inl rfl)] at read
    · rw [size, ← List.cons_append]
      exact List.drop_left ..
    · exact (Scanner.Takes.lexeme (by unfold Begins; decide) read (size.trans rfl)).turn

/-! Numbers -/

theorem ofWord?_power {ds : List Char} (digits : ∀ d ∈ ds, d.isDigit = true) :
    Kind.ofWord? (lowered ('e' :: ds)) = none := by
  have free : ∀ entry ∈ Kind.reserved,
      ¬(entry.1.toList.head? = some 'e' ∧ entry.1.toList.tail.all Char.isDigit = true) := by decide
  have same : ds.map Char.toLower = ds :=
    (List.map_congr_left fun d hd => toLower_of_isDigit (digits d hd)).trans (List.map_id ds)
  cases found : Kind.ofWord? (lowered ('e' :: ds)) with
  | none => rfl
  | some kind =>
    refine absurd ?_ (free _ (mem_reserved found))
    rw [lowered, String.toList_ofList, List.map_cons, same]
    exact ⟨rfl, List.all_eq_true.mpr digits⟩

theorem yields_exponent {exponent : Int} (small : -(largest : Int) ≤ exponent) :
    ∃ w gs, ∀ rest, Ends rest →
      Yields ('e' :: Digits.ofInt exponent) (.word .identifier w :: gs) rest := by
  unfold Digits.ofInt
  split
  · refine ⟨"e", [.sign .minus, ⟨.number, .int exponent.natAbs, .start⟩], fun rest ends => ?_⟩
    have word := @yields_name ['e'] ('-' :: (Digits.ofNat exponent.natAbs ++ rest)) rfl
      (ofWord?_power (by simp)) (stops_cons.mpr rfl)
    have sign := @yields_symbol .minus (Digits.ofNat exponent.natAbs ++ rest) fun _ _ => rfl
    exact yields_append word (yields_append sign (yields_int (by omega) ends))
  · have digits := Digits.isDigit_ofNat exponent.natAbs
    refine ⟨_, [], fun rest ends => yields_name ?_ (ofWord?_power digits) ends.1⟩
    rw [isWord, Bool.and_eq_true, List.all_eq_true]
    exact ⟨rfl, fun c hc => continuesWord_of_isDigit (digits c hc)⟩

theorem stretch_exponent {d : Decimal} (ne : d.digits ≠ [])
    (digits : ∀ c ∈ d.digits, c.isDigit = true) (small : -(largest : Int) < d.point) :
    ∃ t w gs, Stretch (NumberStyle.literal.exponentText d) (t :: .word .identifier w :: gs) := by
  obtain ⟨w, gs, exponent⟩ := @yields_exponent (d.point - 1) (by omega)
  -- Whatever stands before the exponent is one number: the letter goes on with no number.
  have build {digit : Char} {more : List Char} {t : Token} (first : digit.isDigit = true)
      (mantissa : ∀ rest, Yields (digit :: more) [t] ('e' :: rest)) :
      Stretch (digit :: more ++ 'e' :: Digits.ofInt (d.point - 1))
        (t :: .word .identifier w :: gs) :=
    ⟨⟨digit, rfl, begins_of_isDigit first⟩,
      fun rest ends => yields_append (mantissa _) (exponent rest ends)⟩
  have letter (rest : List Char) : Stops Char.isDigit ('e' :: rest) := stops_cons.mpr rfl
  unfold NumberStyle.exponentText
  rcases same : d.digits with _ | ⟨digit, _ | ⟨next, more⟩⟩
  · exact absurd same ne
  · rw [same, List.forall_mem_singleton] at digits
    have value : Digits.value [digit] ≤ largest := by
      have high : digit.toNat ≤ 57 := (Char.isDigit_iff_toNat.mp digits).2
      change 10 * 0 + (digit.toNat - 48) ≤ 9223372036854775807
      omega
    exact ⟨_, w, gs, build digits fun rest =>
      yields_digits (by simp) (by simpa using digits) value (letter rest)
        (fraction_eq_nil_of_stops (by simp))⟩
  · rw [same] at digits
    exact ⟨_, w, gs, build (digits digit (by simp)) fun rest =>
      @yields_decimal [digit] (next :: more) _ (by simp) (by simp) digits (letter rest)⟩

theorem stretch_immoderate {coefficient : Nat} {e : Int}
    (immoderate : ¬(Binary64.ofDecimal false coefficient e).Moderate) :
    ∃ gs, Stretch (Literal.float (.ofDecimal false coefficient e)).text.toList gs ∧
      ∃ t ∈ gs, t.kind = .identifier := by
  rcases NumberStyle.ofDecimal_cases false coefficient e with ⟨rank, small, same⟩ | same
  · rw [same] at immoderate ⊢
    have ne : rank ≠ 0 := fun zero => immoderate (.inl zero)
    have reads := Binary64.shortest_reads small NumberStyle.literal.half
    obtain ⟨c, e, -, least, -, shape⟩ :=
      Binary64.shortest_decimal ne small NumberStyle.literal.half
    have point : -(largest : Int) < (Binary64.shortest NumberStyle.literal.half rank).point := by
      rw [shape, largest]
      dsimp only
      omega
    obtain ⟨t, w, gs, stretch⟩ := stretch_exponent reads.ne reads.digits point
    rw [Literal.text, NumberStyle.text, String.toList_ofList, NumberStyle.chars,
      NumberStyle.magnitude, if_neg fun plain =>
        immoderate ((NumberStyle.literal_plain_iff small).mp plain)]
    exact ⟨_, stretch, _, List.mem_cons_of_mem _ List.mem_cons_self, rfl⟩
  · rw [same]
    have named : Named .identifier "inf" := by constructor <;> decide
    exact ⟨_, named.stands.stretch, _, List.mem_cons_self, rfl⟩

/-- Every integer is written as the lexer reads it, and a float if its magnitude is moderate. -/
def Literal.Moderate : Literal → Prop
  | .float x => x.Moderate
  | _ => True

instance : DecidablePred Literal.Moderate := fun value =>
  match value with
  | .float x => inferInstanceAs (Decidable x.Moderate)
  | .int _ | .str _ | .bool _ => .isTrue trivial

/-- The text of a number of a script is, by itself, this number again exactly if the number is an
integer or of a moderate magnitude: zero, or at least 0.0001 and below ten to the power 16. The text
of any other number has a word in it. -/
theorem number_reread {source : String} {ts : List Token} (h : tokenize source = .ok ts)
    {t : Token} (mem : t ∈ ts) (number : t.kind = .number) :
    ∃ value, literal? t.kind t.payload = some value ∧
      (tokenize value.text =
          .ok [⟨.number, t.payload, ⟨1, 1⟩⟩, .eof (Position.start.after value.text.toList)] ↔
        value.Moderate) ∧
      (¬value.Moderate →
        ∃ us, tokenize value.text = .ok us ∧ ∃ u ∈ us, u.kind = .identifier) := by
  have read : t.IsRead := by
    rcases tokenize_isRead h t mem with layout | read
    · rw [number] at layout
      cases layout
    · exact read
  rw [number]
  rcases read_numeral read number with ⟨n, small, payload⟩ | ⟨coefficient, e, payload⟩
  · rw [payload]
    exact ⟨.int n, rfl, iff_of_true (tokenize_alone (stands_natural small)) trivial,
      fun not => absurd trivial not⟩
  · rw [payload]
    refine ⟨_, rfl, ?_⟩
    by_cases moderate : (Binary64.ofDecimal false coefficient e).Moderate
    · exact ⟨iff_of_true (tokenize_alone (stands_moderate moderate)) moderate,
        fun not => absurd moderate not⟩
    · obtain ⟨gs, stretch, g, member, word⟩ := stretch_immoderate moderate
      obtain ⟨us, finish, tokens, same⟩ :=
        tokenize_yields stretch.begins (stretch.yields [] ends_nil)
      obtain ⟨u, found, unplaced⟩ := List.mem_map.mp (same ▸ member)
      have identifier : u.kind = .identifier := by rw [← word, ← unplaced]; rfl
      refine ⟨iff_of_false (fun alone => ?_) moderate,
        fun _ => ⟨_, tokens, u, List.mem_append_left _ found, identifier⟩⟩
      rw [tokens] at alone
      have inside : u ∈ us ++ [.eof finish] := List.mem_append_left _ found
      rw [Except.ok.inj alone] at inside
      rcases List.mem_cons.mp inside with rfl | inside
      · cases identifier
      · rw [List.mem_singleton.mp inside] at identifier
        cases identifier

theorem number_reread_fraction :
    (tokenize "x = 2.50\n" = .ok [.word .identifier "x", ⟨.symbol .assign, .str "=", ⟨1, 3⟩⟩,
        ⟨.number, .float (.ofDecimal false 250 (-2)), ⟨1, 5⟩⟩, .newline ⟨1, 9⟩, .eof ⟨2, 1⟩] ∧
      (Literal.float (.ofDecimal false 250 (-2))).text = "2.5") ∧
    tokenize "2.5" =
      .ok [⟨.number, .float (.ofDecimal false 250 (-2)), ⟨1, 1⟩⟩, .eof ⟨1, 4⟩] := by
  have source : tokenize "x = 2.50\n" = .ok [.word .identifier "x",
      ⟨.symbol .assign, .str "=", ⟨1, 3⟩⟩, ⟨.number, .float (.ofDecimal false 250 (-2)), ⟨1, 5⟩⟩,
      .newline ⟨1, 9⟩, .eof ⟨2, 1⟩] := by decide +kernel
  have text : (Literal.float (.ofDecimal false 250 (-2))).text = "2.5" := by decide +kernel
  obtain ⟨value, same, alone, -⟩ := number_reread source (t :=
    ⟨.number, .float (.ofDecimal false 250 (-2)), ⟨1, 5⟩⟩) (by simp) rfl
  cases same
  refine ⟨⟨source, text⟩, ?_⟩
  rw [text] at alone
  exact alone.mpr (by decide +kernel)

theorem number_reread_power :
    tokenize "10000000000000000.0" =
      .ok [⟨.number, .float (.ofDecimal false (10 ^ 17) (-1)), ⟨1, 1⟩⟩, .eof ⟨1, 20⟩] ∧
    (Literal.float (.ofDecimal false (10 ^ 17) (-1))).text = "1e16" ∧
    tokenize "1e16" =
      .ok [⟨.number, .int 1, ⟨1, 1⟩⟩, ⟨.identifier, .str "e16", ⟨1, 2⟩⟩, .eof ⟨1, 5⟩] := by
  decide +kernel

end Miaou
