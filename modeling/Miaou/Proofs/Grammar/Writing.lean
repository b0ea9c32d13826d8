import Miaou.Proofs.Grammar.Spelling
import Miaou.Proofs.Grammar.StmtLaw
import Miaou.Proofs.Token.Indented

/-!
Printed statements. `Printed` says that lines are read as tokens from which a statement is read
again, whatever comes behind it but a clause. A line governs the block behind it, and statements
one after the other are read as a body.
-/

namespace Miaou

namespace Grammar

open Piece Layout

/-! Words and expressions on a line -/

theorem stretch_keyword {keyword : Keyword} {w : String} (h : isWord w.toList = true)
    (means : Kind.ofWord? (Lexeme.lowered w.toList) = some (.keyword keyword))
    (single : Lexeme.compound? (Lexeme.lowered w.toList) = none) :
    Stretch w.toList [.word (.keyword keyword) w] :=
  (named_keyword h means single).stands.stretch

theorem stretch_name {w : String} (named : Named .identifier w) :
    Stretch w.toList [.word .identifier w] := named.stands.stretch

theorem spells_stretch {l : Level} {e : Expr} {cs : List Char} {gs : List Token}
    (h : Spells (.expression l e) cs gs) : Stretch cs gs :=
  ⟨(spells_opening h).begins, fun _ ends => spells_yields h ends⟩

theorem stretch_position {cs : List Char} {gs : List Token} (h : Stretch cs gs) :
    ∀ t ∈ gs, t.position = .start := by
  obtain ⟨ts, -, rfl⟩ := h.yields [] ends_nil .start
  intro t ht
  obtain ⟨u, -, rfl⟩ := List.mem_map.mp ht
  rfl

/-! Reading statements again -/

def beginsStatement : Kind → Bool
  | .layout _ | .keyword .meow | .keyword .sinonSi | .keyword .sinon => false
  | _ => true

/-- The tokens are read as the statement, whatever comes behind them but a clause. A line end
before it may be left. -/
def ReadAs (gs : List Token) (s : Stmt) : Prop :=
  ∀ rest, Lacks (.keyword .sinonSi) rest → Lacks (.keyword .sinon) rest →
    ∃ us, outcome (statement (gs ++ rest)) = .ok (s, us) ∧ skipNewlines us = skipNewlines rest

inductive ReadAll : List Token → List Stmt → Prop where
  | nil : ReadAll [] []
  | cons {t : Token} {gs hs : List Token} {s : Stmt} {ss : List Stmt}
      (head : beginsStatement t.kind = true) (first : ReadAs (t :: gs) s)
      (more : ReadAll hs ss) : ReadAll (t :: gs ++ hs) (s :: ss)

theorem outcome_blockBody_skip {ts us : List Token} (h : skipNewlines ts = skipNewlines us) :
    outcome (blockBody ts) = outcome (blockBody us) := by
  cases found : skipNewlines us with
  | nil => rw [outcome_blockBody_nil found, outcome_blockBody_nil (h.trans found)]
  | cons t rest =>
    by_cases mark : t.kind = .layout .dedent
    · rw [outcome_blockBody_close found mark, outcome_blockBody_close (h.trans found) mark]
    · rw [outcome_blockBody found mark, outcome_blockBody (h.trans found) mark]

theorem outcome_statements_skip {ts us : List Token} (h : skipNewlines ts = skipNewlines us) :
    outcome (statements ts) = outcome (statements us) := by
  cases found : skipNewlines us with
  | nil => rw [outcome_statements_nil found, outcome_statements_nil (h.trans found)]
  | cons t rest =>
    by_cases word : t.kind = .keyword .meow
    · rw [outcome_statements_close found word, outcome_statements_close (h.trans found) word]
    · rw [outcome_statements found word, outcome_statements (h.trans found) word]

namespace ReadAll

variable {gs : List Token} {ss : List Stmt}

theorem lacks (h : ReadAll gs ss) {kind : Kind} (other : beginsStatement kind = false)
    {rest : List Token} (lacks : Lacks kind rest) : Lacks kind (gs ++ rest) := by
  cases h with
  | nil => exact lacks
  | @cons t gs hs s ss head first more =>
    refine lacks_cons.mpr ?_
    rintro rfl
    rw [head] at other
    cases other

theorem block (h : ReadAll gs ss) (rest : List Token) :
    outcome (blockBody (gs ++ .mark .dedent :: rest)) = .ok (ss, rest) := by
  induction h with
  | nil => exact outcome_blockBody_close (skipNewlines_lacks (by simp [Token.mark])) rfl
  | @cons t gs hs s ss head first more ih =>
    have apart {kind : Kind} (other : beginsStatement kind = false) (ne : kind ≠ .layout .dedent) :
        Lacks kind (hs ++ .mark .dedent :: rest) :=
      more.lacks other (lacks_cons.mpr ne.symm)
    obtain ⟨us, read, left⟩ := first _ (apart rfl (by decide)) (apart rfl (by decide))
    have plain (mark : Layout) : t.kind ≠ .layout mark := by
      intro same
      rw [same] at head
      cases head
    rw [List.append_assoc, List.cons_append,
      outcome_blockBody (skipNewlines_lacks (lacks_cons.mpr (plain _))) (plain _),
      ← List.cons_append, read]
    refine bind_of_ok ((outcome_blockBody_skip left).trans ih) _

theorem script (h : ReadAll gs ss) {t : Token} (word : t.kind = .keyword .meow)
    (rest : List Token) : outcome (statements (gs ++ t :: rest)) = .ok (ss, t :: rest) := by
  induction h with
  | nil =>
    exact outcome_statements_close (skipNewlines_lacks (by simp [word])) word
  | @cons u gs hs s ss head first more ih =>
    have apart {kind : Kind} (other : beginsStatement kind = false)
        (ne : kind ≠ .keyword .meow) : Lacks kind (hs ++ t :: rest) :=
      more.lacks other (lacks_cons.mpr (word ▸ ne.symm))
    obtain ⟨us, read, left⟩ := first _ (apart rfl (by decide)) (apart rfl (by decide))
    have plain {kind : Kind} (other : beginsStatement kind = false) : u.kind ≠ kind := by
      rintro rfl
      rw [head] at other
      cases other
    rw [List.append_assoc, List.cons_append,
      outcome_statements (skipNewlines_lacks (lacks_cons.mpr (plain rfl))) (plain rfl),
      ← List.cons_append, read]
    exact bind_of_ok ((outcome_statements_skip left).trans ih) _

end ReadAll

end Grammar

namespace Stmt

def unplaced (s : Stmt) : Stmt := s.relocate fun _ => .start

def unplacedBlock (ss : List Stmt) : List Stmt := relocateBlock (fun _ => .start) ss

theorem toList_line (depth : Nat) (text : String) :
    (line depth text).toList = List.replicate (4 * depth) ' ' ++ text.toList ++ ['\n'] := by
  rw [line, String.toList_append, String.toList_append, pad, String.toList_ofList]
  rfl

end Stmt

namespace Grammar

open Piece Layout

/-- The lines `cs` inside `depth` blocks are read as `gs`, and these as the statement. -/
structure Printed (depth : Nat) (cs : List Char) (gs : List Token) (s : Stmt) : Prop where
  starts : Starts depth cs
  reads : Reads depth cs gs
  head : ∃ t ∈ gs.head?, beginsStatement t.kind = true
  again : ReadAs gs s

structure Body (depth : Nat) (ss : List Stmt) (gs : List Token) : Prop where
  starts : ss ≠ [] → Starts depth (Stmt.blockText depth ss).toList
  reads : Reads depth (Stmt.blockText depth ss).toList gs
  again : ReadAll gs (Stmt.unplacedBlock ss)

theorem body_of_printed {depth : Nat} {ss : List Stmt}
    (h : ∀ s ∈ ss, ∃ gs, Printed depth (s.text depth).toList gs s.unplaced) :
    ∃ gs, Body depth ss gs := by
  induction ss with
  | nil => exact ⟨[], fun ne => absurd rfl ne, reads_nil depth, .nil⟩
  | cons s ss ih =>
    rw [List.forall_mem_cons] at h
    obtain ⟨gs, first⟩ := h.1
    obtain ⟨hs, more⟩ := ih h.2
    obtain ⟨t, head, begins⟩ := first.head
    refine ⟨gs ++ hs, ?_, ?_, ?_⟩
    · intro _
      rw [Stmt.blockText, String.toList_append]
      exact first.starts.append _
    · rw [Stmt.blockText, String.toList_append]
      exact first.reads.append more.reads
    · cases gs with
      | nil => cases head
      | cons u gs =>
        cases head
        exact .cons begins first.again more.again

def blockTokens (gs : List Token) : List Token :=
  .mark .newline :: .mark .indent :: (gs ++ [.mark .dedent])

structure Governed (depth : Nat) (text : String) (gs : List Token) (body : List Stmt)
    (hs : List Token) : Prop where
  line : Stretch text.toList gs
  ne : body ≠ []
  body : Body (depth + 1) body hs

namespace Governed

variable {depth : Nat} {text : String} {gs hs : List Token} {body : List Stmt}
  (h : Governed depth text gs body hs)

include h

theorem starts (cs : List Char) : Starts depth ((Stmt.line depth text).toList ++ cs) := by
  rw [Stmt.toList_line, List.append_assoc]
  exact starts_line h.line depth _

theorem reads :
    Reads depth ((Stmt.line depth text).toList ++ (Stmt.blockText (depth + 1) body).toList)
      (gs ++ blockTokens hs) := by
  have whole := reads_block h.line depth (h.body.starts h.ne) h.body.reads
  rw [Stmt.toList_line]
  simpa [blockTokens] using whole

theorem again (rest : List Token) :
    outcome (block (blockTokens hs ++ rest)) = .ok (Stmt.unplacedBlock body, rest) := by
  have opens : skipNewlines (blockTokens hs ++ rest) =
      .mark .indent :: (hs ++ .mark .dedent :: rest) := by
    have shape : blockTokens hs ++ rest =
        .mark .newline :: .mark .indent :: (hs ++ .mark .dedent :: rest) := by simp [blockTokens]
    rw [shape, skipNewlines_newline rfl]
    exact skipNewlines_lacks (by simp [Token.mark])
  rw [outcome_block opens rfl]
  exact h.body.again.block rest

end Governed

theorem printed_line (depth : Nat) {text : String} {t : Token} {gs : List Token} {s : Stmt}
    (line : Stretch text.toList (t :: gs)) (head : beginsStatement t.kind = true)
    (again : ∀ rest, outcome (statement (t :: (gs ++ .mark .newline :: rest))) =
      .ok (s, .mark .newline :: rest)) :
    Printed depth (Stmt.line depth text).toList (t :: gs ++ [.mark .newline]) s where
  starts := by
    rw [Stmt.toList_line]
    exact starts_line line depth _
  reads := by
    rw [Stmt.toList_line]
    exact reads_line line depth
  head := ⟨t, rfl, head⟩
  again rest _ _ := by
    refine ⟨.mark .newline :: rest, ?_, skipNewlines_newline rfl rest⟩
    rw [List.append_assoc]
    exact again rest

theorem printed_blocks {depth : Nat} {text : String} {t : Token} {gs hs is : List Token}
    {body : List Stmt} {s : Stmt} {cs : List Char} (h : Governed depth text (t :: gs) body hs)
    (more : Reads depth cs is) (head : beginsStatement t.kind = true)
    (again : ∀ rest, Lacks (.keyword .sinonSi) rest → Lacks (.keyword .sinon) rest →
      outcome (statement (t :: (gs ++ (blockTokens hs ++ (is ++ rest))))) = .ok (s, rest)) :
    Printed depth ((Stmt.line depth text ++ Stmt.blockText (depth + 1) body).toList ++ cs)
      (t :: gs ++ blockTokens hs ++ is) s where
  starts := by
    rw [String.toList_append]
    exact (h.starts _).append cs
  reads := by
    rw [String.toList_append]
    exact h.reads.append more
  head := ⟨t, rfl, head⟩
  again rest noClause noElse := by
    refine ⟨rest, ?_, rfl⟩
    rw [List.append_assoc, List.append_assoc]
    exact again rest noClause noElse

theorem printed_block {depth : Nat} {text : String} {t : Token} {gs hs : List Token}
    {body : List Stmt} {s : Stmt} (h : Governed depth text (t :: gs) body hs)
    (head : beginsStatement t.kind = true)
    (again : ∀ rest, outcome (statement (t :: (gs ++ (blockTokens hs ++ rest)))) =
      .ok (s, rest)) :
    Printed depth (Stmt.line depth text ++ Stmt.blockText (depth + 1) body).toList
      (t :: gs ++ blockTokens hs) s := by
  have whole := printed_blocks h (reads_nil depth) head fun rest _ _ => again rest
  rwa [List.append_nil, List.append_nil] at whole

end Grammar

end Miaou
