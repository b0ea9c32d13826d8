import Miaou.Proofs.Grammar.Spelling
import Miaou.Proofs.Number.Magnitude
import Miaou.Proofs.Token.Found
import Miaou.Proofs.Token.Layout
import Miaou.Proofs.Token.Yield

/-!
Where the tokens of a script come from. A token that is no layout token was read as a lexeme, so
its name is a word of its kind and its literal has a text that is read as the same literal.
-/

namespace Miaou

open Text Lexeme Grammar

def Token.IsRead (t : Token) : Prop :=
  ∃ c cs l, Lexeme.read c cs = .ok l ∧ t.kind = l.kind ∧ t.payload = l.payload

theorem tokenize_found {source : String} {ts : List Token} (h : tokenize source = .ok ts)
    {t : Token} (member : t ∈ ts) :
    t.kind.isLayout = true ∨ ∃ done c rest l, source.toList = done ++ c :: rest ∧
      Piece.Begins c ∧ Lexeme.read c rest = .ok l ∧
      t = ⟨l.kind, l.payload, Position.start.after done⟩ := by
  rcases Layout.mem_tokens h t member with ⟨mark, -⟩ | found
  · exact .inl mark
  · cases Piece.ofScript_found _ _ found with
    | newline here => exact .inl rfl
    | token here begins read => exact .inr ⟨_, _, _, _, here, begins, read, rfl⟩

theorem tokenize_isRead {source : String} {ts : List Token} (h : tokenize source = .ok ts) :
    ∀ t ∈ ts, t.kind.isLayout = true ∨ t.IsRead := by
  intro t ht
  rcases tokenize_found h ht with mark | ⟨done, c, rest, l, -, -, read, rfl⟩
  · exact .inl mark
  · exact .inr ⟨c, rest, l, read, rfl, rfl⟩

/-! Words -/

namespace Piece

theorem compound?_reserved {word second spelling : String} {keyword : Keyword}
    (h : compound? word = some (second, keyword, spelling)) :
    ∃ kind, Kind.ofWord? word = some kind ∧ namesAttribute kind = false := by
  unfold compound? at h
  split at h <;> cases h <;> exact ⟨_, rfl, rfl⟩

theorem fused?_names {word rest : List Char} {l : Lexeme} (h : fused? word rest = some l) :
    namesAttribute l.kind = false := by
  obtain ⟨blanks, next, more, keyword, spelling, -, -, -, -, -, compound, rfl⟩ :=
    fused?_eq_some h
  generalize lowered next = second at compound
  unfold compound? at compound
  split at compound <;> cases compound <;> rfl

theorem ofWord_named {word rest : List Char} (h : isWord word = true)
    (names : namesAttribute (ofWord word rest).kind = true) :
    Named (ofWord word rest).kind (String.ofList word) ∧
      (ofWord word rest).payload = .str (String.ofList word) := by
  have single {kind : Kind} (found : (Kind.ofWord? (lowered word)).getD .identifier = kind)
      (names : namesAttribute kind = true) : compound? (lowered word) = none := by
    cases compound : compound? (lowered word) with
    | none => rfl
    | some parts =>
      obtain ⟨kind', reserved, other⟩ := compound?_reserved compound
      rw [reserved] at found
      cases found
      rw [Option.getD_some, other] at names
      cases names
  have named {kind : Kind} (found : (Kind.ofWord? (lowered word)).getD .identifier = kind)
      (plain : kind ≠ .boolean) (names : namesAttribute kind = true) :
      Named kind (String.ofList word) := by
    refine ⟨?_, ?_, plain, ?_⟩ <;> rw [String.toList_ofList]
    · exact h
    · exact found
    · exact single found names
  cases reserved : Kind.ofWord? (lowered word) with
  | none =>
    rw [ofWord_name reserved]
    exact ⟨named (by rw [reserved]; rfl) Kind.noConfusion rfl, rfl⟩
  | some kind =>
    by_cases truth : kind = .boolean
    · subst truth
      rw [ofWord, reserved] at names
      cases names
    · cases fused : fused? word rest with
      | none =>
        rw [ofWord_reserved reserved truth fused] at names ⊢
        exact ⟨named (by rw [reserved]; rfl) truth names, rfl⟩
      | some l =>
        rw [ofWord_fused reserved truth fused, fused?_names fused] at names
        cases names

theorem readWord_named {c : Char} {cs : List Char} (starts : startsWord c = true)
    (names : namesAttribute (readWord (c :: cs)).kind = true) :
    ∃ w, Named (readWord (c :: cs)).kind w ∧ (readWord (c :: cs)).payload = .str w := by
  have word : isWord ((c :: cs).takeWhile continuesWord) = true := by
    rw [List.takeWhile_cons_of_pos (continuesWord_of_startsWord starts), isWord, starts,
      Bool.true_and, List.all_eq_true]
    exact fun _ => List.mem_takeWhile_imp
  exact ⟨_, ofWord_named word names⟩

theorem read_named {t : Token} (h : t.IsRead) (names : namesAttribute t.kind = true) :
    Named t.kind t.lexeme := by
  obtain ⟨c, cs, l, read, kind, payload⟩ := h
  rw [kind] at names
  rcases read_cases read with ⟨-, read⟩ | ⟨-, read⟩ | ⟨starts, rfl⟩ | ⟨-, read⟩
  · unfold readString at read
    split at read <;> cases read
    cases names
  · unfold readNumber ofNumber at read
    split_ifs at read <;> cases read <;> cases names
  · obtain ⟨w, named, text⟩ := readWord_named starts names
    have lexeme : t.lexeme = w := by
      have plain : t.kind.isLayout = false := by rw [kind]; exact ofWord_isLayout _ _
      rw [Token.lexeme, plain, payload, text]
      rfl
    rwa [lexeme, kind]
  · obtain ⟨sign, rest, rfl, -⟩ := readSymbol_split read
    cases names

/-! Literals -/

end Piece

def Binary64.Plain (x : Binary64) : Prop :=
  NumberStyle.literal.text x ≠ "inf" ∧ 'e' ∉ (NumberStyle.literal.text x).toList

instance : DecidablePred Binary64.Plain := fun _ => inferInstanceAs (Decidable (_ ∧ _))

namespace Piece

theorem stands_moderate {coefficient : Nat} {e : Int}
    (moderate : (Binary64.ofDecimal false coefficient e).Moderate) :
    Stands (Literal.float (.ofDecimal false coefficient e)).text.toList
      ⟨.number, .float (.ofDecimal false coefficient e), .start⟩ := by
  rcases NumberStyle.ofDecimal_cases false coefficient e with ⟨rank, small, same⟩ | same
  · rw [same] at moderate ⊢
    obtain ⟨whole, part, text, ne, ne', digits, value⟩ :=
      NumberStyle.plainText_reads (s := .literal) rfl (Binary64.shortest_reads small _)
    rw [Literal.text, NumberStyle.text, String.toList_ofList, NumberStyle.chars,
      NumberStyle.magnitude, if_pos ((NumberStyle.literal_plain_iff small).mpr moderate), text,
      ← value]
    exact stands_point ne ne' digits
  · rw [same] at moderate
    exact moderate.elim

theorem moderate_of_plain {coefficient : Nat} {e : Int}
    (plain : (Binary64.ofDecimal false coefficient e).Plain) :
    (Binary64.ofDecimal false coefficient e).Moderate := by
  rcases NumberStyle.ofDecimal_cases false coefficient e with ⟨rank, small, same⟩ | same
  · rw [same] at plain ⊢
    by_contra other
    refine plain.2 ?_
    rw [NumberStyle.text, String.toList_ofList, NumberStyle.chars, NumberStyle.magnitude,
      if_neg fun plainly => other ((NumberStyle.literal_plain_iff small).mp plainly),
      NumberStyle.exponentText]
    exact List.mem_append_right _ (List.mem_append_right _ List.mem_cons_self)
  · rw [same] at plain
    exact absurd rfl plain.1

theorem ofWord_number (word rest : List Char) : (ofWord word rest).kind ≠ .number := by
  have all : ∀ entry ∈ Kind.reserved, entry.2 ≠ .number := by decide
  unfold ofWord
  split
  · exact Kind.noConfusion
  · exact Kind.noConfusion
  · rename_i kind other reserved
    cases fused : fused? word rest with
    | some l =>
      obtain ⟨keyword, same⟩ := fused?_kind fused
      rw [Option.getD_some, same]
      exact Kind.noConfusion
    | none => exact all (lowered word, kind) (mem_reserved reserved)

theorem read_numeral {t : Token} (h : t.IsRead) (number : t.kind = .number) :
    (∃ n : Nat, n ≤ largest ∧ t.payload = .int n) ∨
      ∃ coefficient e, t.payload = .float (.ofDecimal false coefficient e) := by
  obtain ⟨c, cs, l, read, kind, payload⟩ := h
  rw [number] at kind
  rw [payload]
  rcases read_cases read with ⟨-, read⟩ | ⟨-, read⟩ | ⟨-, rfl⟩ | ⟨-, read⟩
  · unfold readString at read
    split at read <;> cases read
    cases kind
  · unfold readNumber ofNumber at read
    split_ifs at read with ne small <;> cases read
    · exact .inr ⟨_, _, rfl⟩
    · exact .inl ⟨_, small, rfl⟩
  · exact absurd kind.symm (ofWord_number _ _)
  · obtain ⟨sign, rest, rfl, -⟩ := readSymbol_split read
    cases kind

theorem read_literal {t : Token} (h : t.IsRead) {value : Literal}
    (found : literal? t.kind t.payload = some value) :
    (∃ n : Nat, n ≤ largest ∧ value = .int n) ∨
      (∃ coefficient e, value = .float (.ofDecimal false coefficient e)) ∨
      (∃ s, value = .str s) ∨ ∃ b, value = .bool b := by
  have numeral := read_numeral h
  unfold literal? at found
  split at found <;> cases found
  · rename_i n number payload
    rcases numeral number with ⟨m, small, same⟩ | ⟨_, _, same⟩ <;> rw [payload] at same <;>
      cases same
    exact .inl ⟨m, small, rfl⟩
  · rename_i x number payload
    rcases numeral number with ⟨_, _, same⟩ | ⟨coefficient, e, same⟩ <;> rw [payload] at same <;>
      cases same
    exact .inr (.inl ⟨coefficient, e, rfl⟩)
  · exact .inr (.inr (.inl ⟨_, rfl⟩))
  · exact .inr (.inr (.inr ⟨_, rfl⟩))

theorem literal?_payload {t : Token} {x : Binary64}
    (h : literal? t.kind t.payload = some (.float x)) : t.payload = .float x := by
  unfold literal? at h
  split at h <;> cases h
  assumption

theorem read_stands {t : Token} (h : t.IsRead) {value : Literal}
    (found : literal? t.kind t.payload = some value)
    (plain : ∀ x, t.payload = .float x → x.Plain) : Stands value.text.toList value.token := by
  rcases read_literal h found with ⟨n, small, rfl⟩ | ⟨coefficient, e, rfl⟩ | ⟨s, rfl⟩ | ⟨b, rfl⟩
  · exact stands_natural small
  · exact stands_moderate (moderate_of_plain (plain _ (literal?_payload found)))
  · exact stands_quoted s
  · exact stands_truth b

end Piece

end Miaou
