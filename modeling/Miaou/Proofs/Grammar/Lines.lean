import Miaou.Proofs.Grammar.Printing
import Miaou.Proofs.Grammar.Writing

/-!
Printed statements of one line. Their expressions are faithful, so each is read again up to the end
of the line; the token behind a name tells what statement the name begins.
-/

namespace Miaou

namespace Grammar

open Piece

/-! Expressions of a line -/

def beginsOperand : Kind → Bool
  | .identifier | .string | .number | .boolean | .builtin _ | .symbol .leftParen
  | .keyword .compteur | .keyword .liste | .keyword .dictionnaire | .keyword .demander
  | .keyword .aleatoire => true
  | _ => false

theorem beginsOperand_of_opens {t : Token} (h : opens t = true) :
    beginsOperand t.kind = true := by
  obtain ⟨kind, payload, pos⟩ := t
  unfold opens at h
  split at h
  case h_9 =>
    dsimp only at h
    unfold literal? at h
    split at h <;> first | rfl | cases h
  all_goals
    rename_i same
    dsimp only at same
    subst same
    rfl

theorem beginsStatement_of_beginsOperand {kind : Kind} (h : beginsOperand kind = true) :
    beginsStatement kind = true := by
  unfold beginsOperand at h
  split at h <;> first | rfl | cases h

theorem misplaced?_of_beginsOperand {kind : Kind} (h : beginsOperand kind = true) :
    misplaced? kind = none := by
  unfold beginsOperand at h
  split at h <;> first | rfl | cases h

theorem leads_of_beginsOperand {kind : Kind} (h : beginsOperand kind = true)
    (other : kind ≠ .identifier) : leads kind = false := by
  unfold beginsOperand at h
  split at h <;> first | rfl | exact absurd rfl other | cases h

theorem goesOn?_of_beginsOperand {kind : Kind} (h : beginsOperand kind = true)
    (other : kind ≠ .symbol .leftParen) : goesOn? kind = none := by
  unfold beginsOperand at h
  split at h <;> first | rfl | exact absurd rfl other | cases h

theorem endsLine_of_beginsOperand {t : Token} (h : beginsOperand t.kind = true)
    (rest : List Token) : endsLine (t :: rest) = false := by
  have plain (mark : Layout) : t.kind ≠ .layout mark := by
    intro same
    rw [same] at h
    cases h
  simp [endsLine, plain]

structure Tokens (e : Expr) (t : Token) (gs : List Token) : Prop where
  spells : Spells (.expression .postfixes e.unplaced) e.text.toList (t :: gs)
  begins : beginsOperand t.kind = true

theorem Faithful.tokens {e : Expr} (h : Faithful e) : ∃ t gs, Tokens e t gs := by
  obtain ⟨gs, spells⟩ := h
  obtain ⟨t, head, opensAt⟩ := (spells_opening spells).token
  cases gs with
  | nil => cases head
  | cons u us =>
    cases head
    refine ⟨t, us, spells, beginsOperand_of_opens ?_⟩
    rcases opensAt with opens | ⟨-, high⟩ | ⟨-, high⟩
    · exact opens
    · exact absurd high (by decide)
    · exact absurd high (by decide)

namespace Tokens

variable {e : Expr} {t : Token} {gs : List Token} (h : Tokens e t gs)

include h

theorem stretch : Stretch e.text.toList (t :: gs) := spells_stretch h.spells

theorem read (l : Level) {rest : List Token} (halts : Halts l.rank rest) :
    outcome (expression l (t :: (gs ++ rest))) = .ok (e.unplaced, rest) :=
  (derives_of_completes (spells_completes (spells_looser h.spells (Level.one_le_rank l)))
    halts).reads

theorem lacks_assign (kind : t.kind = .identifier) (rest : List Token) :
    Lacks (.symbol .assign) (gs ++ .mark .newline :: rest) := by
  cases gs with
  | nil => simp [Token.mark]
  | cons u us =>
    refine lacks_cons.mpr fun assign => ?_
    have whole := h.read .postfixes (@halts_of_none (.mark .newline) rfl 1 rest)
    have ends := outcome_accesses_end (.identifier t.position t.lexeme)
      (lacks_of_kind assign (by decide)) (lacks_of_kind assign (by decide))
      (@lacks_of_kind _ (.symbol .dot) u (us ++ .mark .newline :: rest) assign (by decide))
    rw [outcome_postfixes, bind_of_ok (outcome_identifier kind _)] at whole
    have same := (Prod.mk.inj (Except.ok.inj (ends.symm.trans whole))).2
    rw [(List.cons.inj same).1] at assign
    cases assign

end Tokens

/-! Statements -/

theorem printed_assign {pos : Position} {name : String} {value : Expr}
    (named : Named .identifier name) (faithful : Faithful value) (depth : Nat) :
    ∃ gs, Printed depth ((Stmt.assign pos name value).text depth).toList gs
      (Stmt.assign pos name value).unplaced := by
  obtain ⟨t, gs, tokens⟩ := faithful.tokens
  have line : Stretch (name ++ " = " ++ value.text).toList
      (.word .identifier name :: BinaryOp.eq.token :: t :: gs) := by
    have whole := (stretch_name named).append
      (fun rest done => yields_operator .eq (tokens.stretch.yields rest done))
      (fun _ _ => ends_space _)
    simpa [String.toList_append, BinaryOp.text] using whole
  refine ⟨_, printed_line depth line rfl fun rest => ?_⟩
  refine (outcome_namedStatement rfl _).trans ((outcome_assign _ rfl _).trans ?_)
  exact bind_of_ok (tokens.read .lowest (halts_of_none rfl 9 rest)) _

theorem printed_import {pos : Position} {name : String} (named : Named .identifier name)
    (depth : Nat) :
    ∃ gs, Printed depth ((Stmt.importModule pos name).text depth).toList gs
      (Stmt.importModule pos name).unplaced := by
  have word : Stretch "importer".toList [.word (.keyword .importer) "importer"] :=
    stretch_keyword (by decide) (by decide) (by decide)
  have line : Stretch ("importer " ++ name).toList
      [.word (.keyword .importer) "importer", .word .identifier name] := by
    simpa [String.toList_append] using word.space (stretch_name named)
  refine ⟨_, printed_line depth line rfl fun rest => ?_⟩
  rw [outcome_import rfl]
  exact bind_of_ok (outcome_expect _ rfl _) _

theorem printed_giveBack {pos : Position} {value : Option Expr}
    (faithful : ∀ e ∈ value, Faithful e) (depth : Nat) :
    ∃ gs, Printed depth ((Stmt.giveBack pos value).text depth).toList gs
      (Stmt.giveBack pos value).unplaced := by
  have word : Stretch "retour".toList [.word (.keyword .retour) "retour"] :=
    stretch_keyword (by decide) (by decide) (by decide)
  cases value with
  | none =>
    refine ⟨_, printed_line depth word rfl fun rest => ?_⟩
    rw [outcome_giveBack rfl]
    exact bind_of_ok (outcome_returned_none rfl) _
  | some e =>
    obtain ⟨t, gs, tokens⟩ := (faithful e rfl).tokens
    have line : Stretch ("retour " ++ e.text).toList
        (.word (.keyword .retour) "retour" :: t :: gs) := by
      simpa [String.toList_append] using word.space tokens.stretch
    refine ⟨_, printed_line depth line rfl fun rest => ?_⟩
    rw [outcome_giveBack rfl, List.cons_append,
      outcome_returned (endsLine_of_beginsOperand tokens.begins _),
      tokens.read .lowest (halts_of_none rfl 9 rest)]
    rfl

def Indexed (e : Expr) : Prop :=
  ∃ w, Named .identifier w ∧ SpelledFrom [.word .identifier w, .sign .leftBracket] e e.text

theorem printed_assignIndex {pos place : Position} {object index value : Expr}
    (target : Indexed (.item place object index)) (faithful : Faithful value) (depth : Nat) :
    ∃ gs, Printed depth ((Stmt.assignIndex pos object index value).text depth).toList gs
      (Stmt.assignIndex pos object index value).unplaced := by
  obtain ⟨w, named, gs, spells⟩ := target
  obtain ⟨t, hs, tokens⟩ := faithful.tokens
  have line : Stretch (object.text ++ "[" ++ index.text ++ "] = " ++ value.text).toList
      (.word .identifier w :: .sign .leftBracket :: (gs ++ BinaryOp.eq.token :: t :: hs)) := by
    have whole := (spells_stretch spells).append
      (fun rest done => yields_operator .eq (tokens.stretch.yields rest done))
      (fun _ _ => ends_space _)
    simpa [String.toList_append, BinaryOp.text, Expr.text] using whole
  refine ⟨_, printed_line depth line rfl fun rest => ?_⟩
  have halts (us : List Token) : Halts 1 (BinaryOp.eq.token :: us) :=
    halts_cons.mpr fun r found => by
      cases found
      decide
  have read := (derives_of_completes (spells_completes spells)
    (halts (t :: (hs ++ .mark .newline :: rest)))).reads
  have shape : gs ++ BinaryOp.eq.token :: t :: hs ++ .mark .newline :: rest =
      gs ++ BinaryOp.eq.token :: t :: (hs ++ .mark .newline :: rest) := by simp
  rw [outcome_namedStatement rfl, List.cons_append, shape, outcome_assignItem _ rfl]
  refine (bind_of_ok read _).trans ((outcome_itemAssignment rfl ..).trans ?_)
  exact bind_of_ok (tokens.read .lowest (halts_of_none rfl 9 rest)) _

def name? : Expr → Option String
  | .identifier _ name => some name
  | .call _ function _ => some function
  | _ => none

def Phrase.Unprinting : Phrase → Prop
  | .expression _ e => name? e ≠ some "ecrire"
  | _ => True

theorem spells_unprinting {phrase : Phrase} {cs : List Char} {gs : List Token}
    (h : Spells phrase cs gs) : phrase.Unprinting := by
  induction h with
  | @name w named =>
    rintro ⟨⟩
    exact absurd named.means (by decide)
  | lift inner ih => exact ih
  | group inner ih => exact ih
  | @call object function given cs ds gs hs path first group ih =>
    intro same
    cases object with
    | identifier pos name =>
      cases path
      exact ih same
    | «attribute» pos inner name =>
      cases path
      have text : (Expr.attribute pos inner name).text = "ecrire" := Option.some.inj same
      have point : '.' ∈ (Expr.attribute pos inner name).text.toList := by
        simp [Expr.text, String.toList_append]
      rw [text] at point
      exact absurd point (by decide)
    | _ => cases path
  | @builtin function given cs gs group ih =>
    have apart : function.function ≠ "ecrire" := by cases function <;> decide
    exact fun same => apart (Option.some.inj same)
  | random size group ih => simp [Phrase.Unprinting, name?]
  | _ => simp [Phrase.Unprinting, name?]

theorem Faithful.expressionText {e : Expr} (h : Faithful e) :
    Stmt.expressionText e = e.text := by
  obtain ⟨gs, spells⟩ := h
  have apart := spells_unprinting spells
  cases e with
  | call pos function given =>
    rw [Stmt.expressionText, if_neg]
    rintro rfl
    exact apart rfl
  | _ => rfl

theorem printed_expression {pos : Position} {e : Expr} (faithful : Faithful e) (depth : Nat) :
    ∃ gs, Printed depth ((Stmt.expression pos e).text depth).toList gs
      (Stmt.expression pos e).unplaced := by
  obtain ⟨t, gs, tokens⟩ := faithful.tokens
  have line : Stretch (Stmt.expressionText e).toList (t :: gs) := by
    rw [faithful.expressionText]
    exact tokens.stretch
  refine ⟨_, printed_line depth line (beginsStatement_of_beginsOperand tokens.begins)
    fun rest => ?_⟩
  have start := (spells_opening tokens.spells).position
  have start' := stretch_position tokens.stretch t List.mem_cons_self
  have halts : Halts 9 (.mark .newline :: rest) := halts_of_none rfl 9 rest
  have whole := tokens.read .lowest halts
  by_cases kind : t.kind = .identifier
  · rw [outcome_namedStatement kind]
    have assign := tokens.lacks_assign kind rest
    by_cases item : Lacks (.symbol .leftBracket) (gs ++ .mark .newline :: rest)
    · rw [outcome_named t assign item, whole, start']
      rfl
    · have tight := tokens.read .postfixes (halts.mono (by decide))
      cases gs with
      | nil => exact absurd (by simp [Token.mark]) item
      | cons u us =>
        have mark : u.kind = .symbol .leftBracket := by simpa using item
        refine (outcome_assignItem t mark _).trans ((bind_of_ok tight _).trans ?_)
        rw [start']
        exact outcome_itemAssignment_end _ _ (by simp [Token.mark])
  · rw [outcome_plain (leads_of_beginsOperand tokens.begins kind)
      (misplaced?_of_beginsOperand tokens.begins), whole]
    exact congrArg (fun p => Except.ok (Stmt.expression p e.unplaced, _)) start

/-! Printing statements -/

def Phrase.Parenthesised : Phrase → List Char → List Token → Prop
  | .expression _ _, cs, gs => ∀ t ∈ gs.head?, t.kind = .symbol .leftParen → '(' ∈ cs.head?
  | _, _, _ => True

theorem spells_parenthesised {phrase : Phrase} {cs : List Char} {gs : List Token}
    (h : Spells phrase cs gs) : phrase.Parenthesised cs gs := by
  have behind {l : Level} {e : Expr} {cs ds : List Char} {gs hs : List Token}
      (opening : Opening l e cs gs)
      (inner : ∀ t ∈ gs.head?, t.kind = .symbol .leftParen → '(' ∈ cs.head?) :
      ∀ t ∈ (gs ++ hs).head?, t.kind = .symbol .leftParen → '(' ∈ (cs ++ ds).head? := by
    intro t ht paren
    obtain ⟨u, head, -⟩ := opening.token
    cases Option.mem_unique ht (Text.mem_head?_append head hs)
    exact Text.mem_head?_append (inner t head paren) ds
  induction h with
  | @literal value cs stands =>
    rintro t ⟨⟩ paren
    cases value <;> cases paren
  | group inner ih => exact fun _ _ _ => rfl
  | lift inner ih => exact ih
  | @sign s op e cs gs mark operand ih =>
    rintro t ⟨⟩ ⟨⟩
    cases mark
  | operation mark first second ih ih' => exact behind (spells_opening first) ih
  | power first second ih ih' => exact behind (spells_opening first) ih
  | call path first group ih ih' => exact behind (spells_opening first) ih
  | item first inner ih ih' => exact behind (spells_opening first) ih
  | «attribute» named names first ih => exact behind (spells_opening first) ih
  | name named =>
    rintro t ⟨⟩ ⟨⟩
  | compteur =>
    rintro t ⟨⟩ ⟨⟩
  | not operand ih =>
    rintro t ⟨⟩ ⟨⟩
  | list group ih =>
    rintro t ⟨⟩ ⟨⟩
  | dict group ih =>
    rintro t ⟨⟩ ⟨⟩
  | builtin group ih =>
    rintro t ⟨⟩ ⟨⟩
  | random size group ih =>
    rintro t ⟨⟩ ⟨⟩
  | _ => trivial

inductive Row : List Expr → List Token → Prop where
  | nil : Row [] []
  | cons {e : Expr} {es : List Expr} {t : Token} {gs hs : List Token} (first : Tokens e t gs)
      (more : Row es hs) : Row (e :: es) (t :: (gs ++ hs))

def rowText (es : List Expr) : List Char := es.flatMap fun e => ' ' :: e.text.toList

theorem row_of_faithful {es : List Expr} (faithful : ∀ e ∈ es, Faithful e) :
    ∃ gs, Row es gs := by
  induction es with
  | nil => exact ⟨[], .nil⟩
  | cons e es ih =>
    rw [List.forall_mem_cons] at faithful
    obtain ⟨t, gs, first⟩ := faithful.1.tokens
    obtain ⟨hs, more⟩ := ih faithful.2
    exact ⟨_, .cons first more⟩

namespace Row

variable {es : List Expr} {gs : List Token}

theorem ends (h : Row es gs) {rest : List Char} (done : Ends rest) : Ends (rowText es ++ rest) := by
  cases h with
  | nil => exact done
  | cons => exact ends_space _

theorem yields (h : Row es gs) {rest : List Char} (done : Ends rest) :
    Yields (rowText es) gs rest := by
  induction h with
  | nil => exact yields_nil rest
  | cons first more ih =>
    exact yields_append (yields_space (first.stretch.yields _ (more.ends done))) ih

theorem halts (h : Row es gs) (apart : ∀ e ∈ es.head?, '(' ∉ e.text.toList.head?)
    (rest : List Token) : Halts 9 (gs ++ .mark .newline :: rest) := by
  cases h with
  | nil => exact halts_of_none rfl 9 rest
  | @cons e es t gs hs first more =>
    have other : t.kind ≠ .symbol .leftParen := fun paren =>
      apart e rfl (spells_parenthesised first.spells t rfl paren)
    exact halts_of_none (goesOn?_of_beginsOperand first.begins other) 9 _

theorem read (h : Row es gs) (apart : ∀ e ∈ es.tail, '(' ∉ e.text.toList.head?)
    (rest : List Token) :
    outcome (lineOfExpressions (gs ++ .mark .newline :: rest)) =
      .ok (es.map Expr.unplaced, .mark .newline :: rest) := by
  induction h with
  | nil => exact outcome_line_end rfl
  | @cons e es t gs hs first more ih =>
    have halts := more.halts (fun e he => apart e (List.mem_of_mem_head? he)) rest
    rw [List.cons_append, List.append_assoc,
      outcome_line (endsLine_of_beginsOperand first.begins _),
      bind_of_ok (first.read (.chain .sum) (halts.mono (by decide)))]
    exact bind_of_ok (ih fun e he => apart e (List.mem_of_mem_tail he)) _

end Row

/-- The printed values of a line. Only the first may begin with a parenthesis, which would go on
with the value before it. -/
structure Values (es : List Expr) (cs : List Char) (gs : List Token) : Prop where
  yields : ∀ rest, Ends rest → Yields cs gs rest
  ends : ∀ rest, Ends rest → Ends (cs ++ rest)
  read : ∀ rest, outcome (lineOfExpressions (gs ++ .mark .newline :: rest)) =
    .ok (es.map Expr.unplaced, .mark .newline :: rest)

theorem values_of_faithful {es : List Expr} (faithful : ∀ e ∈ es, Faithful e)
    (apart : ∀ e ∈ es.tail, '(' ∉ e.text.toList.head?) :
    ∃ gs, Values es (es.flatMap fun e => ' ' :: e.text.toList) gs := by
  obtain ⟨gs, row⟩ := row_of_faithful faithful
  exact ⟨gs, fun _ => row.yields, fun _ => row.ends, row.read apart⟩

theorem printed_print {pos place : Position} {given : List Expr}
    (faithful : ∀ e ∈ given, Faithful e) (apart : ∀ e ∈ given.tail, '(' ∉ e.text.toList.head?)
    (depth : Nat) :
    ∃ gs, Printed depth
      ((Stmt.expression pos (.call place "ecrire" given)).text depth).toList gs
      (Stmt.expression pos (.call place "ecrire" given)).unplaced := by
  obtain ⟨gs, values⟩ := values_of_faithful faithful apart
  have word : Stretch "ecrire".toList [.word (.keyword .ecrire) "ecrire"] :=
    stretch_keyword (by decide) (by decide) (by decide)
  have line : Stretch (Stmt.expressionText (.call place "ecrire" given)).toList
      (.word (.keyword .ecrire) "ecrire" :: gs) := by
    rw [Stmt.expressionText, if_pos rfl, toList_separated, texts_eq_map, List.flatMap_map]
    exact word.append values.yields values.ends
  refine ⟨_, printed_line depth line rfl fun rest => ?_⟩
  rw [outcome_print rfl, bind_of_ok (values.read rest), Stmt.unplaced, Stmt.relocate, Expr.relocate,
    Expr.relocateAll_eq_map]
  rfl

end Grammar

end Miaou
