import Mathlib.Data.List.Chain
import Miaou.Proofs.Grammar.StmtLikeness
import Miaou.Proofs.Token.Respelled

/-!
Reading a script whose reserved words are spelled in other cases. The spelling of a reserved word
is looked at in one place only, behind a point, where the word is read as the name of an attribute.
Everywhere else its kind decides, so the script is accepted, or refused at the same place, in all
cases of its words, and it is the same program unless a reserved word stands behind a point.
-/

namespace Miaou

theorem Token.Respells.lexeme {t t' : Token} (h : t.Respells t')
    (plain : t.kind.keepsSpelling = false) : t'.lexeme = t.lexeme := by
  rcases h.payload with payload | ⟨keeps, -⟩
  · rw [Token.lexeme, Token.lexeme, h.kind, payload]
  · rw [plain] at keeps
    cases keeps

namespace Grammar

/-- No word of a token that keeps its spelling stands right behind a point. -/
def Unpointed (ts : List Token) : Prop :=
  ts.IsChain fun t u => t.kind = .symbol .dot → u.kind.keepsSpelling = false

instance (ts : List Token) : Decidable (Unpointed ts) :=
  inferInstanceAs (Decidable (ts.IsChain fun t u =>
    t.kind = .symbol .dot → u.kind.keepsSpelling = false))

theorem literal?_respelled {t t' : Token} (h : t.Respells t') :
    literal? t'.kind t'.payload = literal? t.kind t.payload := by
  rw [h.kind]
  rcases h.payload with payload | ⟨keeps, -⟩
  · rw [payload]
  · generalize t.kind = kind at keeps ⊢
    cases kind <;> first | rfl | cases keeps

theorem eq_of_forall₂ {α : Type} {R : α → α → Prop} (each : ∀ a a', R a a' → a' = a)
    {as as' : List α} (h : List.Forall₂ R as as') : as' = as := by
  induction h with
  | nil => rfl
  | cons same _ ih => rw [each _ _ same, ih]

theorem block_eq {strict : Prop} (h : strict) {ss ss' : List Stmt}
    (body : List.Forall₂ (fun s s' => strict → s' = s) ss ss') : ss' = ss :=
  eq_of_forall₂ (fun _ _ like => like h) body

/-- Tokens are alike up to the cases of the words they keep. Expressions have the same shape, and
in the strict sense, in which names behind a point must be spelled alike, what is read is equal. -/
def respelled (strict : Prop) : Likeness where
  token := Token.Respells
  pointed t t' := strict → t'.lexeme = t.lexeme
  expr e e' := (e'.path?.isSome = e.path?.isSome ∧ e'.isItem = e.isItem) ∧ (strict → e' = e)
  stmt h h' := strict → h' = h
  program p p' := strict → p' = p
  kind same := same.kind
  name same word := same.lexeme (by rw [word]; rfl)
  path same := same.1.1
  isItem same := same.1.2
  literal := by
    intro t t' same
    rw [literal?_respelled same, same.position]
    cases literal? t.kind t.payload with
    | none => exact .none
    | some value => exact .some ⟨⟨rfl, rfl⟩, fun _ => rfl⟩
  identifier same name := ⟨⟨rfl, rfl⟩, fun _ => by rw [same.position]⟩
  unary same op operand := ⟨⟨rfl, rfl⟩, fun h => by rw [same.position, operand.2 h]⟩
  binary left op right := ⟨⟨rfl, rfl⟩, fun h => by rw [left.2 h, right.2 h]⟩
  function same name given := ⟨⟨rfl, rfl⟩, fun h => by
    rw [same.position, eq_of_forall₂ (fun _ _ like => like.2 h) given]⟩
  call := by
    intro e e' f f' es es' object path path' given
    refine ⟨⟨rfl, rfl⟩, fun h => ?_⟩
    rw [object.2 h, path] at path'
    cases path'
    rw [object.2 h, eq_of_forall₂ (fun _ _ like => like.2 h) given]
  list same items := ⟨⟨rfl, rfl⟩, fun h => by
    rw [same.position, eq_of_forall₂ (fun _ _ like => like.2 h) items]⟩
  dict same entries := ⟨⟨rfl, rfl⟩, fun h => by
    rw [same.position,
      eq_of_forall₂ (fun _ _ like => Prod.ext (like.1.2 h) (like.2.2 h)) entries]⟩
  item object index := ⟨⟨rfl, rfl⟩, fun h => by rw [object.2 h, index.2 h]⟩
  member object same _ := ⟨⟨rfl, rfl⟩, fun h => by rw [object.2 h, same h]⟩
  assign same name value h := by rw [same.position, value.2 h]
  assignIndex := by
    intro t t' p p' o o' i i' e e' same target value h
    cases target.2 h
    rw [same.position, value.2 h]
  branch := by
    intro t t' e e' ss ss' cs cs' os os' same condition body clauses otherwise h
    have last : os' = os := by
      cases otherwise with
      | none => rfl
      | some block => rw [block_eq h block]
    have further : cs' = cs := eq_of_forall₂ (fun _ _ like => Prod.ext (like.1.2 h)
      (block_eq h like.2)) clauses
    rw [same.position, condition.2 h, block_eq h body, further, last]
  whileLoop same condition body h := by
    rw [same.position, condition.2 h, block_eq h body]
  repeatLoop same count body h := by
    rw [same.position, count.2 h, block_eq h body]
  forEach same name items body h := by
    rw [same.position, items.2 h, block_eq h body]
  define same name names body h := by
    rw [same.position, block_eq h body]
  giveBack := by
    intro t t' e e' same value h
    cases value with
    | none => rw [same.position]
    | some like => rw [same.position, like.2 h]
  attempt same body handler h := by
    rw [same.position, block_eq h body,
      block_eq h handler]
  importModule same name h := by rw [same.position]
  named same value h := by rw [same.position, value.2 h]
  bare value h := by rw [value.2 h]
  script same body h := by rw [same.position, block_eq h body]

theorem tokens_respelled {strict : Prop} {ts ts' : List Token}
    (h : List.Forall₂ Token.Respells ts ts') (apart : strict → Unpointed ts) :
    (respelled strict).Tokens ts ts' := by
  induction h with
  | nil => exact .nil
  | @cons t t' rest rest' token more ih =>
    refine .cons token (ih fun s => (apart s).of_cons) fun dot u first u' first' s => ?_
    cases more with
    | nil => cases first
    | cons next _ =>
      cases first
      cases first'
      exact next.lexeme ((List.isChain_cons_cons.mp (apart s)).1 dot)

end Grammar

theorem positions_respelled {ts ts' : List Token} (h : List.Forall₂ Token.Respells ts ts') :
    ts'.map Token.position = ts.map Token.position := by
  induction h with
  | nil => rfl
  | cons token _ ih => exact congrArg₂ List.cons token.position ih

theorem Program.finish_respelled {ts ts' : List Token} (h : List.Forall₂ Token.Respells ts ts') :
    finish ts' = finish ts := by
  have first : (ts'.find? isEof).map Token.position = (ts.find? isEof).map Token.position := by
    induction h with
    | nil => rfl
    | @cons t t' rest rest' token more ih =>
      rw [List.find?_cons, List.find?_cons, isEof, isEof, token.kind]
      split
      · exact congrArg some token.position
      · exact ih
  have last : ts'.getLast?.map Token.position = ts.getLast?.map Token.position := by
    rw [← List.getLast?_map, ← List.getLast?_map, positions_respelled h]
  rw [finish, finish, last]
  generalize ts.find? isEof = found at first
  generalize ts'.find? isEof = found' at first
  cases found with
  | none =>
    cases found' with
    | none => rfl
    | some t => cases first
  | some t =>
    cases found' with
    | none => cases first
    | some t' => exact Option.some.inj first

/-- In other cases of its reserved words a script has the same tokens, up to the spelling of the
words that are kept, and is accepted or refused for the same cause at the same place. If no
keyword and no name of a built-in function stands right behind a point, it is the same program. -/
theorem parse_respelled {source source' : String} (h : Respelled source.toList source'.toList) :
    Agree (List.Forall₂ Token.Respells) (tokenize source) (tokenize source') ∧
      Agree (fun p p' => ∀ ts, tokenize source = .ok ts → Grammar.Unpointed ts → p' = p)
        (parse source) (parse source') := by
  have tokens := tokenize_respelled h
  refine ⟨tokens, ?_⟩
  rw [parse, parse]
  generalize tokenize source = found at tokens ⊢
  generalize tokenize source' = found' at tokens ⊢
  cases tokens with
  | error cause position => exact .error cause position
  | @ok ts ts' same =>
    change Agree _ (Program.ofTokens ts) (Program.ofTokens ts')
    have alike := Grammar.tokens_respelled same (@id (Grammar.Unpointed ts))
    obtain ⟨p, p', read, read', like⟩ | ⟨cause, us, us', rest, read, read'⟩ :=
      Grammar.Likeness.reads_ofTokens alike
    · rw [read, read']
      refine .ok fun us found apart => like ?_
      rwa [Except.ok.inj found]
    · rw [read, read']
      cases rest with
      | nil => exact .error rfl (Program.finish_respelled same)
      | cons token => exact .error rfl token.position

theorem parse_respelled_capitals :
    Respelled "miaou\nmeow".toList "Miaou\nMEOW".toList ∧
      ∃ p, parse "miaou\nmeow" = .ok p ∧ parse "Miaou\nMEOW" = .ok p := by
  let cs := "miaou\nmeow".toList
  let first : Token := ⟨.keyword .miaou, .str "miaou", ⟨1, 1⟩⟩
  let last : Token := ⟨.keyword .meow, .str "meow", ⟨2, 1⟩⟩
  let opening : Scanner := ⟨[], cs, false, [], []⟩
  let opened : Scanner := ⟨cs.take 5, cs.drop 5, false, [], [first]⟩
  let line : Scanner := ⟨cs.take 6, cs.drop 6, true, [], [first, .newline ⟨1, 6⟩]⟩
  let closing : Scanner := { line with fresh := false }
  let closed : Scanner := ⟨cs, [], false, [], [first, .newline ⟨1, 6⟩, last]⟩
  have run : Scanner.Reaches (Scanner.begin cs) opening := .single (by decide +kernel)
  have open' : Scanner.Goes opening opened := by decide +kernel
  have run' : Scanner.Reaches (Scanner.begin cs) closing :=
    ((run.tail open').tail (by decide +kernel : Scanner.Goes opened line)).tail (by decide +kernel)
  have close : Scanner.Goes closing closed := by decide +kernel
  have respelled : Respelled cs "Miaou\nMEOW".toList := by
    refine ⟨by decide, fun n free => ?_⟩
    by_cases word : n < 5
    · exact absurd ⟨opening, opened, first, run, open', rfl, rfl, Nat.zero_le n, word⟩ free
    by_cases feed : n = 5
    · rw [feed]
      decide
    by_cases word' : n < 10
    · exact absurd ⟨closing, closed, last, run', close, rfl, rfl, by
        change 6 ≤ n
        omega, word'⟩ free
    · rw [List.getElem?_eq_none (by simpa using word'),
        List.getElem?_eq_none (by simpa [cs] using word')]
  have tokens : tokenize "miaou\nmeow" = .ok [first, .newline ⟨1, 6⟩, last, .eof ⟨2, 5⟩] := by
    decide +kernel
  have accepted : (parse "miaou\nmeow").toOption.isSome = true := by decide +kernel
  obtain ⟨-, programs⟩ := parse_respelled respelled
  generalize parse "miaou\nmeow" = found at programs accepted
  generalize parse "Miaou\nMEOW" = found' at programs
  cases programs with
  | error => cases accepted
  | ok same => exact ⟨respelled, _, rfl, congrArg Except.ok (same _ tokens (by decide))⟩

end Miaou
