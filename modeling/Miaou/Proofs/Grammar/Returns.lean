import Miaou.Proofs.Grammar.StmtLikeness
import Miaou.Proofs.Token.Returns

/-!
Reading a script that has carriage returns before its line feeds. The places of the line feeds and
the values of strings are all that changes in its tokens, and neither is looked at: a script is
accepted when it is accepted without the carriage returns.
-/

namespace Miaou

namespace Grammar

/-- Tokens are alike when they are of one kind, names when they are spelled alike too; expressions
when both or neither can be called, and both or neither have an item that can be assigned to. All
statements are alike. -/
def forms : Likeness where
  token t t' := t'.kind = t.kind ∧ (t.kind = .identifier → t'.lexeme = t.lexeme) ∧
    (literal? t'.kind t'.payload).isSome = (literal? t.kind t.payload).isSome
  pointed _ _ := True
  expr e e' := e'.path?.isSome = e.path?.isSome ∧ e'.isItem = e.isItem
  stmt _ _ := True
  program _ _ := True
  kind same := same.1
  name same := same.2.1
  path same := same.1
  isItem same := same.2
  literal := by
    rintro t t' ⟨-, -, values⟩
    generalize literal? t.kind t.payload = value at values
    generalize literal? t'.kind t'.payload = value' at values
    cases value <;> cases value' <;> cases values
    · exact .none
    · exact .some ⟨rfl, rfl⟩
  identifier _ _ := ⟨rfl, rfl⟩
  unary _ _ _ := ⟨rfl, rfl⟩
  binary _ _ _ := ⟨rfl, rfl⟩
  function _ _ _ := ⟨rfl, rfl⟩
  call _ _ _ _ := ⟨rfl, rfl⟩
  list _ _ := ⟨rfl, rfl⟩
  dict _ _ := ⟨rfl, rfl⟩
  item _ _ := ⟨rfl, rfl⟩
  member _ _ _ := ⟨rfl, rfl⟩
  assign _ _ _ := trivial
  assignIndex _ _ _ := trivial
  branch _ _ _ _ _ := trivial
  whileLoop _ _ _ := trivial
  repeatLoop _ _ _ := trivial
  forEach _ _ _ _ := trivial
  define _ _ _ _ := trivial
  giveBack _ _ := trivial
  attempt _ _ _ := trivial
  importModule _ _ := trivial
  named _ _ := trivial
  bare _ := trivial
  script _ _ := trivial

theorem forms_of_withReturns {t t' : Token} (h : t.WithReturns t') : forms.token t t' := by
  obtain ⟨kind, payload, p⟩ := t
  obtain ⟨kind', payload', p'⟩ := t'
  obtain ⟨rfl, -, payloads⟩ := h
  rw [Payload.WithReturns] at payloads
  by_cases string : kind' = .string
  · subst string
    rw [if_pos rfl] at payloads
    refine ⟨rfl, fun name => (by cases name), ?_⟩
    cases payload <;> cases payload' <;> first | rfl | cases payloads
  · rw [if_neg string] at payloads
    subst payloads
    exact ⟨rfl, fun _ => rfl, rfl⟩

end Grammar

theorem parse_crlf (source : String) :
    (∃ p, parse source = .ok p) ↔ ∃ p, parse (crlf source) = .ok p := by
  have read := tokenize_crlf source
  rw [parse, parse]
  generalize tokenize source = found at read
  generalize tokenize (crlf source) = found' at read
  cases read with
  | error fault => rfl
  | @ok ts ts' same =>
    change (∃ p, Program.ofTokens ts = .ok p) ↔ ∃ p, Program.ofTokens ts' = .ok p
    have alike := same.imp fun _ _ => Grammar.forms_of_withReturns
    obtain ⟨p, p', read, read', -⟩ | ⟨cause, us, us', -, read, read'⟩ :=
      Grammar.Likeness.reads_ofTokens (Grammar.Likeness.tokens_of_forall₂ (fun _ => trivial) alike)
    · rw [read, read']
      exact ⟨fun _ => ⟨p', rfl⟩, fun _ => ⟨p, rfl⟩⟩
    · rw [read, read']
      constructor <;> (rintro ⟨_, ⟨⟩⟩)

end Miaou
