import Miaou.Proofs.Grammar.Printing
import Miaou.Proofs.Token.Literals

/-!
Printed text as a stretch of a line. The text of whatever was read from a script is read as tokens
again, whatever stands behind it, even where these are not the tokens of the expression: a number
with an exponent is read as a number and a word.
-/

namespace Miaou

open Text Piece

/-- The text is read as tokens, whatever follows that does not go on with a word or a number. -/
def Scannable (text : String) : Prop := ∃ gs, Stretch text.toList gs

namespace Grammar

/-! Groups -/

def restTokens : List (List Token) → List Token
  | [] => [.sign .rightParen]
  | gs :: more => .sign .comma :: (gs ++ restTokens more)

def groupTokens : List (List Token) → List Token
  | [] => [.sign .rightParen]
  | gs :: more => gs ++ restTokens more

def restText (texts : List String) : List Char :=
  texts.flatMap (fun text => ", ".toList ++ text.toList) ++ [')']

theorem ends_rest (texts : List String) (rest : List Char) : Ends (restText texts ++ rest) := by
  cases texts <;> exact ends_cons (by decide) (by decide) _

abbrev Stretches (texts : List String) (parts : List (List Token)) : Prop :=
  List.Forall₂ (fun text gs => Stretch text.toList gs) texts parts

theorem yields_close (rest : List Char) : Yields [')'] [.sign .rightParen] rest :=
  yields_symbol .rightParen fun _ _ => rfl

theorem yields_rest {texts : List String} {parts : List (List Token)}
    (h : Stretches texts parts) (rest : List Char) :
    Yields (restText texts) (restTokens parts) rest := by
  induction h with
  | nil => exact yields_close rest
  | @cons text gs texts parts first more ih =>
    have whole := yields_mark .comma (fun _ => rfl)
      (yields_space (yields_append (first.yields _ (ends_rest texts rest)) ih))
    simp only [restText, List.flatMap_cons, List.append_assoc] at whole ⊢
    exact whole

theorem yields_tokens {texts : List String} {parts : List (List Token)}
    (h : Stretches texts parts) (rest : List Char) :
    Yields ((separated ", " texts).toList ++ [')']) (groupTokens parts) rest := by
  cases h with
  | nil => exact yields_close rest
  | @cons text gs texts parts first more =>
    have whole := yields_append (first.yields _ (ends_rest texts rest)) (yields_rest more rest)
    rw [toList_separated, List.append_assoc]
    exact whole

theorem stretch_group {word : String} {gs : List Token} (first : Stretch word.toList gs)
    {texts : List String} {parts : List (List Token)} (h : Stretches texts parts) :
    Stretch (word ++ "(" ++ separated ", " texts ++ ")").toList
      (gs ++ .sign .leftParen :: groupTokens parts) := by
  have text : (word ++ "(" ++ separated ", " texts ++ ")").toList =
      word.toList ++ '(' :: ((separated ", " texts).toList ++ [')']) := by
    simp [String.toList_append]
  rw [text]
  exact first.append
    (fun rest _ => yields_mark .leftParen (fun _ => rfl) (yields_tokens h rest))
    fun rest _ => ends_paren _

theorem exists_forall₂ {α β : Type} {R : α → β → Prop} {as : List α} (h : ∀ a ∈ as, ∃ b, R a b) :
    ∃ bs, List.Forall₂ R as bs := by
  induction as with
  | nil => exact ⟨[], .nil⟩
  | cons a as ih =>
    rw [List.forall_mem_cons] at h
    obtain ⟨b, first⟩ := h.1
    obtain ⟨bs, more⟩ := ih h.2
    exact ⟨b :: bs, .cons first more⟩

theorem scannable_group {word : String} (first : Scannable word) {texts : List String}
    (h : ∀ text ∈ texts, Scannable text) :
    Scannable (word ++ "(" ++ separated ", " texts ++ ")") := by
  obtain ⟨gs, first⟩ := first
  obtain ⟨parts, more⟩ := exists_forall₂ h
  exact ⟨_, stretch_group first more⟩

/-! Parts of an expression -/

theorem scannable_of_stands {text : String} {t : Token} (h : Stands text.toList t) :
    Scannable text := ⟨_, h.stretch⟩

theorem scannable_enclosed {text : String} (h : Scannable text) :
    Scannable ("(" ++ text ++ ")") := by
  obtain ⟨gs, stretch⟩ := h
  have whole : ("(" ++ text ++ ")").toList = '(' :: (text.toList ++ [')']) := by
    simp [String.toList_append]
  rw [Scannable, whole]
  exact ⟨_, ⟨'(', rfl, by unfold Begins; decide⟩, fun rest _ => yields_mark .leftParen
    (fun _ => rfl) (yields_append (stretch.yields _ (ends_rest [] rest)) (yields_close rest))⟩

theorem scannable_operation {first second : String} (h : Scannable first) (op : BinaryOp)
    (h' : Scannable second) : Scannable (first ++ " " ++ op.text ++ " " ++ second) := by
  obtain ⟨gs, stretch⟩ := h
  obtain ⟨hs, stretch'⟩ := h'
  have whole : (first ++ " " ++ op.text ++ " " ++ second).toList =
      first.toList ++ ' ' :: (op.text.toList ++ ' ' :: second.toList) := by
    simp [String.toList_append]
  rw [Scannable, whole]
  exact ⟨_, stretch.append (fun rest ends => yields_operator op (stretch'.yields rest ends))
    fun rest _ => ends_space _⟩

theorem scannable_lead (op : UnaryOp) {text : String} (h : Scannable text) :
    Scannable (op.lead ++ text) := by
  obtain ⟨gs, stretch⟩ := h
  have mark (s : Symbol) (simple : ∀ c, Lexeme.grows s c = false)
      (begins : ∃ c ∈ (s.text.toList ++ text.toList).head?, Begins c) :
      Scannable (s.text ++ text) := by
    rw [Scannable, String.toList_append]
    exact ⟨_, begins, fun rest ends => yields_mark s simple (stretch.yields rest ends)⟩
  cases op with
  | not =>
    have whole : (UnaryOp.not.lead ++ text).toList = "non".toList ++ ' ' :: text.toList := by
      simp [String.toList_append, UnaryOp.lead]
    rw [Scannable, whole]
    exact ⟨_, named_non.stands.stretch.space stretch⟩
  | neg => exact mark .minus (fun _ => rfl) ⟨'-', rfl, by unfold Begins; decide⟩
  | plus => exact mark .plus (fun _ => rfl) ⟨'+', rfl, by unfold Begins; decide⟩

theorem scannable_item {first index : String} (h : Scannable first) (h' : Scannable index) :
    Scannable (first ++ "[" ++ index ++ "]") := by
  obtain ⟨gs, stretch⟩ := h
  obtain ⟨hs, stretch'⟩ := h'
  have whole : (first ++ "[" ++ index ++ "]").toList =
      first.toList ++ '[' :: (index.toList ++ [']']) := by
    simp [String.toList_append]
  rw [Scannable, whole]
  have close (rest : List Char) :
      Yields (index.toList ++ [']']) (hs ++ [.sign .rightBracket]) rest :=
    yields_append (stretch'.yields _ (ends_cons (by decide) (by decide) _))
      (yields_symbol .rightBracket fun _ _ => rfl)
  exact ⟨_, stretch.append (fun rest _ => yields_mark .leftBracket (fun _ => rfl) (close rest))
    fun rest _ => ends_cons (by decide) (by decide) _⟩

theorem scannable_member {first name : String} {kind : Kind} (h : Scannable first)
    (named : Named kind name) : Scannable (first ++ "." ++ name) := by
  obtain ⟨gs, stretch⟩ := h
  have whole : (first ++ "." ++ name).toList = first.toList ++ '.' :: name.toList := by
    simp [String.toList_append]
  rw [Scannable, whole]
  exact ⟨_, stretch.append (fun rest ends => yields_mark .dot (fun _ => rfl)
    (named.stands.yields rest ends)) fun rest _ => named.ends rest⟩

theorem scannable_entry {key value : String} (h : Scannable key) (h' : Scannable value) :
    Scannable (key ++ ": " ++ value) := by
  obtain ⟨gs, stretch⟩ := h
  obtain ⟨hs, stretch'⟩ := h'
  have whole : (key ++ ": " ++ value).toList = key.toList ++ [':'] ++ ' ' :: value.toList := by
    simp [String.toList_append]
  rw [Scannable, whole]
  exact ⟨_, stretch.colon.space stretch'⟩

theorem scannable_literal {t : Token} (h : t.IsRead) {value : Literal}
    (found : literal? t.kind t.payload = some value) : Scannable value.text := by
  rcases read_literal h found with ⟨n, small, rfl⟩ | ⟨coefficient, e, rfl⟩ | ⟨s, rfl⟩ | ⟨b, rfl⟩
  · exact scannable_of_stands (stands_natural small)
  · by_cases moderate : (Binary64.ofDecimal false coefficient e).Moderate
    · exact scannable_of_stands (stands_moderate moderate)
    · obtain ⟨gs, stretch, -⟩ := stretch_immoderate moderate
      exact ⟨gs, stretch⟩
  · exact scannable_of_stands (stands_quoted s)
  · exact scannable_of_stands (stands_truth b)

theorem scannable_name {name : String} (named : Expr.IsName name) : Scannable name := by
  rcases named with named | rfl
  · exact scannable_of_stands named.stands
  · exact scannable_of_stands named_compteur.stands

/-! Whole expressions -/

variable {whole : List Token}

theorem scannable_unary {pos : Position} {op : UnaryOp} {operand : Expr}
    (inner : Scannable operand.text) : Scannable (Expr.unary pos op operand).text := by
  have whole := scannable_enclosed (scannable_lead op inner)
  rwa [← String.append_assoc] at whole

theorem scannable_binary {pos : Position} {op : BinaryOp} {left right : Expr}
    (first : Scannable left.text) (second : Scannable right.text) :
    Scannable (Expr.binary pos op left right).text := by
  have whole := scannable_enclosed (scannable_operation first op second)
  simp only [← String.append_assoc] at whole
  rwa [Expr.text]

theorem scannable_call {word : String} (first : Scannable word) {es : List Expr}
    (h : ∀ e ∈ es, Scannable e.text) :
    Scannable (word ++ "(" ++ separated ", " (Expr.texts es) ++ ")") := by
  refine scannable_group first fun text member => ?_
  rw [texts_eq_map] at member
  obtain ⟨e, inner, rfl⟩ := List.mem_map.mp member
  exact h e inner

theorem inherited_scannable (read : ∀ t ∈ whole, t.kind.isLayout = true ∨ t.IsRead) :
    Inherited whole fun e => Scannable e.text where
  literal mem found := scannable_literal (isRead_of_literal (read _ mem) found) found
  name named := scannable_name named
  unary := scannable_unary
  binary := scannable_binary
  call path callee inner := by
    rw [Expr.text_of_path path] at callee
    exact scannable_call callee inner
  item first inner := scannable_item first inner
  member first named _ := scannable_member first named
  list inner := scannable_call (scannable_of_stands named_liste.stands) inner
  dict inner := by
    refine scannable_group (scannable_of_stands named_dictionnaire.stands) fun text member => ?_
    rw [entryTexts_eq_map] at member
    obtain ⟨pair, mem, rfl⟩ := List.mem_map.mp member
    exact scannable_entry (inner pair mem).1 (inner pair mem).2
  builtin function _ inner :=
    scannable_call (scannable_of_stands (named_builtin function).stands) inner
  random _ inner := scannable_call (scannable_of_stands named_aleatoire.stands) inner

theorem scannable_of_read {l : Level} {ts rest : List Token} {e : Expr}
    (origin : ∀ t ∈ ts, t.kind.isLayout = true ∨ t.IsRead)
    (read : Derives (.expression l e) ts rest) : Scannable e.text := by
  -- No point stands before the tokens: the end of a line is put there.
  have behind : Behind (.newline .start :: ts) ts :=
    ⟨.newline .start, Kind.noConfusion, List.suffix_refl _⟩
  have origin' : ∀ t ∈ Token.newline .start :: ts, t.kind.isLayout = true ∨ t.IsRead :=
    List.forall_mem_cons.mpr ⟨.inl rfl, origin⟩
  exact (derives_all (inherited_scannable origin') origin' read behind).1

end Grammar

end Miaou
