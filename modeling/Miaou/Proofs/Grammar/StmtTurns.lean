import Miaou.Proofs.Grammar.ExprTurns

/-!
One turn of the procedures for statements and blocks agrees with their readers, if the calls within
it do.
-/

namespace Miaou.Cursor

open Grammar

section Turns

variable {s : Source} {fuel : Nat} {call : {α : Type} → Call α → Proc α} {us : List Token}
  (faithful : Faithful s fuel call)

theorem run_endsLine {place : Nat} (left : s.Left place us) :
    endsLine.run s place = ⟨.ok (Grammar.endsLine us, place), []⟩ := by
  rw [endsLine, Proc.run_bind_of_ok (Proc.run_current left)]
  cases us with
  | nil => simp [Grammar.endsLine]
  | cons t rest =>
    rw [Proc.run_pure, s.front_cons]
    simp only [left.kind, decide_false, Bool.or_false]
    rfl

include faithful

theorem lineOfExpressions_agrees (enough : Call.lineOfExpressions.depth us ≤ fuel) :
    Agrees s us (lineOfExpressions call) (Reader.lineOfExpressions us) := by
  refine .look (fun _ left => run_endsLine left) ?_
  cases ends : Grammar.endsLine us with
  | true =>
    rw [Reader.lineOfExpressions, outcome_line_end ends]
    exact .pure []
  | false =>
    rw [Reader.lineOfExpressions, outcome_line ends]
    refine .watched (faithful.first enough (.expression (.chain .sum)) (by decide))
      (fun e vs read => outcome_rest_lt read) fun e vs read => ?_
    refine .bind (faithful .lineOfExpressions vs ?_) fun es ws _ => .pure _
    have lt := outcome_rest_lt read
    simp only [Call.depth] at enough ⊢
    omega

theorem parameters_agrees (enough : Call.parameters.depth us ≤ fuel) :
    Agrees s us (parameters call) (Reader.parameters us) := by
  refine .current ?_
  cases us with
  | nil =>
    rw [Reader.parameters, outcome_parameters_unnamed (by simp)]
    simp only [s.front_nil_kind, reduceCtorEq, ↓reduceIte]
    exact .halt (.expect_lacks _ (lacks_nil _) (by decide) rfl rfl)
  | cons t rest =>
    rw [s.front_cons]
    by_cases close : t.kind = .symbol .rightParen
    · rw [if_pos close, Reader.parameters, outcome_parameters_none close]
      exact .advance (.pure [])
    rw [if_neg close]
    by_cases name : t.kind = .identifier
    · refine .andThen (.expect_cons _ _ name rest) ?_
      rcases lacks_or_cons (.symbol .comma) rest with comma | ⟨u, us, rfl, mark⟩
      · refine .eat_lacks comma (by decide) (.current ?_)
        rcases lacks_or_cons (.symbol .rightParen) rest with last | ⟨u, us, rfl, mark⟩
        · rw [if_neg (Agrees.front_ne last (by decide)), Reader.parameters,
            outcome_parameters_open name fun u hu => ⟨comma u hu, last u hu⟩]
          exact .miss _ rfl rfl
        · rw [s.front_cons, if_pos mark, Reader.parameters, outcome_parameters_last name mark]
          exact .advance (.pure _)
      · rw [Reader.parameters, outcome_parameters name mark]
        exact .eat_cons mark (.bind (faithful.later enough .parameters (Nat.le_succ _))
          fun names vs _ => .pure _)
    · rw [Reader.parameters, outcome_parameters_unnamed (by simpa using ⟨close, name⟩)]
      exact .halt (.expect_lacks _ (lacks_cons.mpr name) (by decide) rfl rfl)

section Statement

variable {t : Token} {rest : List Token} (enough : Call.statement.depth (t :: rest) ≤ fuel)

include enough

theorem itemAssignment_agrees {pos : Position} {target : Expr} {vs : List Token}
    (le : vs.length ≤ rest.length) :
    Agrees s vs (itemAssignment call pos target) (Reader.itemAssignment pos target vs) := by
  refine .current ?_
  rcases lacks_or_cons (.symbol .assign) vs with lacks | ⟨u, us, rfl, mark⟩
  · rw [if_neg (Agrees.front_ne lacks (by decide)), Reader.itemAssignment,
      outcome_itemAssignment_end pos target lacks]
    exact .pure _
  · rw [s.front_cons, if_pos mark]
    simp only [List.length_cons] at le
    split
    · rw [Reader.itemAssignment, outcome_itemAssignment mark]
      exact .advance (.bind (faithful.later enough (.expression .lowest) (by omega))
        fun value ws _ => .pure _)
    · rename_i other
      rw [Reader.itemAssignment, outcome_itemAssignment_other mark pos other]
      exact .fail _ rfl rfl

theorem namedStatement_agrees (kind : t.kind = .identifier) :
    Agrees s (t :: rest) (namedStatement call t) (Reader.statement (t :: rest)) := by
  have next (place : Nat) (left : s.Left place (t :: rest)) :
      (Proc.ahead 1).run s place = ⟨.ok (s.front rest, place), []⟩ := by
    have le := left.next.le
    have lt := s.stop_lt
    have inside : min (place + 1) (s.tokens.length - 1) = place + 1 := by omega
    have found := left.next.get
    rw [List.getElem?_eq_some_iff] at found
    simp only [Proc.ahead, inside, found.2]
  refine .look next ?_
  rw [Reader.statement, outcome_namedStatement kind]
  split
  · rename_i mark
    cases rest with
    | nil =>
      rw [s.front_nil_kind] at mark
      cases mark
    | cons u us =>
      rw [s.front_cons] at mark
      rw [outcome_assign t mark]
      exact .advance (.advance (.bind (faithful.later enough (.expression .lowest) (Nat.le_succ _))
        fun value vs _ => .pure _))
  · rename_i mark
    cases rest with
    | nil =>
      rw [s.front_nil_kind] at mark
      cases mark
    | cons u us =>
      rw [s.front_cons] at mark
      rw [outcome_assignItem t mark]
      refine .bind (faithful.first enough (.expression .postfixes) (by decide))
        fun target vs read => itemAssignment_agrees faithful enough ?_
      exact Nat.le_of_lt_succ (outcome_rest_lt read)
  · rename_i noAssign noItem
    have lacks (kind : Kind) (other : (s.front rest).kind ≠ kind) : Lacks kind rest := by
      rintro u hu
      cases rest with
      | nil => cases hu
      | cons v vs =>
        cases hu
        exact other
    rw [outcome_named t (lacks _ noAssign) (lacks _ noItem)]
    exact .bind (faithful.first enough (.expression .lowest) (by decide)) fun e vs _ => .pure _

theorem otherwise_agrees {vs : List Token} (le : vs.length ≤ rest.length) :
    Agrees s vs (otherwise call) (Reader.otherwise vs) := by
  rcases lacks_or_cons (.keyword .sinon) vs with lacks | ⟨u, us, rfl, word⟩
  · rw [Reader.otherwise, outcome_otherwise_end lacks]
    exact .eat_lacks lacks (by decide) (.pure none)
  · rw [Reader.otherwise, outcome_otherwise word]
    simp only [List.length_cons] at le
    refine .eat_cons word (.bind (.expect (by decide) rfl rfl) fun _ ws read => ?_)
    have lt := outcome_rest_lt read
    exact .bind (faithful.later enough .block (by omega)) fun body xs _ => .pure _

theorem branch_agrees (kind : t.kind = .keyword .si) :
    Agrees s (t :: rest) (branch call t.position) (Reader.statement (t :: rest)) := by
  rw [Reader.statement, outcome_branch kind]
  refine .advance (.bind (faithful.later enough (.expression .lowest) (Nat.le_refl _))
    fun condition us read => .eat_skip (by decide) fun _ => .bind (.expect (by decide) rfl rfl)
      fun _ vs read' => ?_)
  have lt := outcome_rest_lt read
  have le := skip_length_le (.keyword .alors) us
  have lt' := outcome_rest_lt read'
  refine .bind (faithful.later enough .block (by omega)) fun body ws read₂ => ?_
  have lt₂ := outcome_rest_lt read₂
  refine .bind (faithful.later enough .clauses (by omega)) fun more xs read₃ => ?_
  have lt₃ := outcome_rest_lt read₃
  exact .bind (otherwise_agrees faithful enough (by omega)) fun last ys _ => .pure _

theorem whileLoop_agrees (kind : t.kind = .keyword .tantQue) :
    Agrees s (t :: rest) (whileLoop call t.position) (Reader.statement (t :: rest)) := by
  rw [Reader.statement, outcome_while kind]
  refine .advance (.bind (faithful.later enough (.expression .lowest) (Nat.le_refl _))
    fun condition us read => .bind (.expect (by decide) rfl rfl) fun _ vs read' => ?_)
  have lt := outcome_rest_lt read
  have lt' := outcome_rest_lt read'
  exact .bind (faithful.later enough .block (by omega)) fun body ws _ => .pure _

theorem repeatLoop_agrees (kind : t.kind = .keyword .repeter) :
    Agrees s (t :: rest) (repeatLoop call t.position) (Reader.statement (t :: rest)) := by
  rw [Reader.statement, outcome_repeat kind]
  refine .advance (.bind (faithful.later enough (.expression .lowest) (Nat.le_refl _))
    fun count us read => .eat_skip (by decide) fun _ => .bind (.expect (by decide) rfl rfl)
      fun _ vs read' => ?_)
  have lt := outcome_rest_lt read
  have le := skip_length_le (.keyword .fois) us
  have lt' := outcome_rest_lt read'
  exact .bind (faithful.later enough .block (by omega)) fun body ws _ => .pure _

theorem forEach_agrees (kind : t.kind = .keyword .pourChaque) :
    Agrees s (t :: rest) (forEach call t.position) (Reader.statement (t :: rest)) := by
  rw [Reader.statement, outcome_forEach kind]
  refine .advance (.bind (.expect (by decide) rfl rfl) fun name us read =>
    .bind (.expect (by decide) rfl rfl) fun _ vs read' => ?_)
  have lt := outcome_rest_lt read
  have lt' := outcome_rest_lt read'
  refine .bind (faithful.later enough (.expression .lowest) (by omega)) fun items ws read₂ =>
    .bind (.expect (by decide) rfl rfl) fun _ xs read₃ => ?_
  have lt₂ := outcome_rest_lt read₂
  have lt₃ := outcome_rest_lt read₃
  exact .bind (faithful.later enough .block (by omega)) fun body ys _ => .pure _

theorem define_agrees (kind : t.kind = .keyword .fonction) :
    Agrees s (t :: rest) (define call t.position) (Reader.statement (t :: rest)) := by
  rw [Reader.statement, outcome_define kind]
  refine .advance (.bind (.expect (by decide) rfl rfl) fun name us read =>
    .bind (.expect (by decide) rfl rfl) fun _ vs read' => ?_)
  have lt := outcome_rest_lt read
  have lt' := outcome_rest_lt read'
  refine .bind (faithful.later enough .parameters (by omega)) fun names ws read₂ =>
    .bind (.expect (by decide) rfl rfl) fun _ xs read₃ => ?_
  have lt₂ := outcome_rest_lt read₂
  have lt₃ := outcome_rest_lt read₃
  exact .bind (faithful.later enough .block (by omega)) fun body ys _ => .pure _

omit enough in
theorem returned_agrees {c : Call Stmt} (enough : c.depth (t :: rest) ≤ fuel) :
    Agrees s rest (returned call) (Reader.returned rest) := by
  refine .look (fun _ left => run_endsLine left) ?_
  cases ends : Grammar.endsLine rest with
  | true =>
    rw [Reader.returned, outcome_returned_none ends]
    exact .pure none
  | false =>
    rw [Reader.returned, outcome_returned ends]
    exact .bind (faithful.later enough (.expression .lowest) (Nat.le_refl _))
      fun e vs _ => .pure _

theorem attempt_agrees (kind : t.kind = .keyword .essayer) :
    Agrees s (t :: rest) (attempt call t.position) (Reader.statement (t :: rest)) := by
  rw [Reader.statement, outcome_attempt kind]
  refine .advance (.bind (.expect (by decide) rfl rfl) fun _ us read => ?_)
  have lt := outcome_rest_lt read
  refine .bind (faithful.later enough .block (by omega)) fun body vs read' =>
    .bind (.expect (by decide) rfl rfl) fun _ ws read₂ => .eat_skip (by decide) fun _ =>
      .bind (.expect (by decide) rfl rfl) fun _ xs read₃ => ?_
  have lt' := outcome_rest_lt read'
  have lt₂ := outcome_rest_lt read₂
  have le := skip_length_le (.keyword .erreur) ws
  have lt₃ := outcome_rest_lt read₃
  exact .bind (faithful.later enough .block (by omega)) fun handler ys _ => .pure _

end Statement

omit faithful in
theorem misplaced_agrees {t : Token} {rest : List Token} {kind : Kind} {cause : Cause}
    {code : Code} (found : t.kind = kind) (misplaced : misplaced? kind = some cause)
    (same : cause.code = code) (names : cause.expected? = none) :
    Agrees s (t :: rest) (Proc.fail code) (Reader.statement (t :: rest)) := by
  rw [Reader.statement, outcome_misplaced (found ▸ misplaced)]
  exact .fail cause same names

theorem statement_agrees (enough : Call.statement.depth us ≤ fuel) :
    Agrees s us (statement call) (Reader.statement us) := by
  refine .current ?_
  cases us with
  | nil =>
    have refused : Reader.expression .lowest [] = .error ⟨.unknownInstruction, []⟩ :=
      eq_error_of_map (by decide +kernel)
    have first := faithful.first enough (.expression .lowest) (by decide)
    rw [Call.reader, refused] at first
    rw [Reader.statement, outcome_statement_nil]
    simp only [s.front_nil_kind]
    exact .halt first
  | cons t rest =>
    rw [s.front_cons]
    split
    · rw [Reader.statement, outcome_print ‹_›]
      exact .advance (.bind (faithful.later enough .lineOfExpressions (Nat.le_refl _))
        fun given vs _ => .pure _)
    · exact branch_agrees faithful enough ‹_›
    · exact whileLoop_agrees faithful enough ‹_›
    · exact repeatLoop_agrees faithful enough ‹_›
    · exact forEach_agrees faithful enough ‹_›
    · exact define_agrees faithful enough ‹_›
    · rw [Reader.statement, outcome_giveBack ‹_›]
      exact .advance (.bind (returned_agrees faithful enough) fun value vs _ => .pure _)
    · exact attempt_agrees faithful enough ‹_›
    · rw [Reader.statement, outcome_import ‹_›]
      exact .advance (.bind (.expect (by decide) rfl rfl) fun name vs _ => .pure _)
    · exact namedStatement_agrees faithful enough ‹_›
    · exact misplaced_agrees ‹_› rfl rfl rfl
    · exact misplaced_agrees ‹_› rfl rfl rfl
    · exact misplaced_agrees ‹_› rfl rfl rfl
    · exact misplaced_agrees ‹_› rfl rfl rfl
    · exact misplaced_agrees ‹_› rfl rfl rfl
    · have plain : leads t.kind = false := by
        unfold leads
        split <;> first | rfl | contradiction
      have allowed : misplaced? t.kind = none := by
        unfold misplaced?
        split <;> first | rfl | contradiction
      rw [Reader.statement, outcome_plain plain allowed]
      exact .bind (faithful.first enough (.expression .lowest) (by decide))
        fun e vs _ => .pure _

/-! Blocks -/

theorem block_agrees (enough : Call.block.depth us ≤ fuel) :
    Agrees s us (block call) (Reader.block us) := by
  have le := skipNewlines_length_le us
  refine .andThen (faithful.first enough .skipNewlines (by decide)) (.current ?_)
  rcases lacks_or_cons (.layout .indent) (Grammar.skipNewlines us) with
    lacks | ⟨t, rest, found, mark⟩
  · rw [if_neg (Agrees.front_ne lacks (by decide)), Reader.block, outcome_block_flat lacks]
    exact .fail _ rfl rfl
  · rw [found, s.front_cons, if_pos mark, Reader.block, outcome_block found mark]
    refine .advance (faithful .blockBody rest ?_)
    rw [found] at le
    simp only [Call.depth, Call.rank, List.length_cons] at le enough ⊢
    omega

theorem behind_agrees {c : Call (List Stmt)} (rank : c.rank = 14) (enough : c.depth us ≤ fuel)
    {t : Token} {rest : List Token} (found : Grammar.skipNewlines us = t :: rest) :
    Agrees s (t :: rest) (call .statement >>= fun st => call c >>= fun sts => pure (st :: sts))
      (Reader.statement (t :: rest) >>= fun (st, vs) =>
        c.reader vs >>= fun (sts, ws) => .ok (st :: sts, ws)) := by
  have le := skipNewlines_length_le us
  rw [found] at le
  refine .bind (faithful .statement (t :: rest) ?_) fun st vs read =>
    .bind (faithful c vs ?_) fun sts ws _ => .pure _
  · simp only [Call.depth, rank] at enough ⊢
    simp only [Call.rank]
    omega
  · have lt := outcome_rest_lt read
    simp only [Call.depth, rank] at enough ⊢
    omega

theorem blockBody_agrees (enough : Call.blockBody.depth us ≤ fuel) :
    Agrees s us (blockBody call) (Reader.blockBody us) := by
  refine .andThen (faithful.first enough .skipNewlines (by decide)) (.current ?_)
  cases found : Grammar.skipNewlines us with
  | nil =>
    rw [Reader.blockBody, outcome_blockBody_nil found, s.front_nil_kind]
    exact .pure []
  | cons t rest =>
    rw [s.front_cons]
    by_cases mark : t.kind = .layout .dedent
    · rw [if_pos mark, Reader.blockBody, outcome_blockBody_close found mark]
      exact .advance (.pure [])
    · rw [if_neg mark, Reader.blockBody, outcome_blockBody found mark]
      intro place left
      rw [if_neg left.kind]
      exact behind_agrees faithful rfl enough found place left

theorem statements_agrees (enough : Call.statements.depth us ≤ fuel) :
    Agrees s us (statements call) (Reader.statements us) := by
  refine .andThen (faithful.first enough .skipNewlines (by decide)) (.current ?_)
  cases found : Grammar.skipNewlines us with
  | nil =>
    rw [Reader.statements, outcome_statements_nil found, s.front_nil_kind]
    exact .pure []
  | cons t rest =>
    rw [s.front_cons]
    by_cases word : t.kind = .keyword .meow
    · rw [if_pos (by simp [word]), Reader.statements, outcome_statements_close found word]
      exact .pure []
    · rw [Reader.statements, outcome_statements found word]
      intro place left
      rw [if_neg (by simp [word, left.kind])]
      exact behind_agrees faithful rfl enough found place left

theorem clauses_agrees (enough : Call.clauses.depth us ≤ fuel) :
    Agrees s us (clauses call) (Reader.clauses us) := by
  rcases lacks_or_cons (.keyword .sinonSi) us with lacks | ⟨t, rest, rfl, word⟩
  · rw [Reader.clauses, outcome_clauses_end lacks]
    exact .eat_lacks lacks (by decide) (.pure [])
  · rw [Reader.clauses, outcome_clauses word]
    refine .eat_cons word (.bind (faithful.later enough (.expression .lowest) (Nat.le_refl _))
      fun condition us read => .eat_skip (by decide) fun _ => .bind (.expect (by decide) rfl rfl)
        fun _ vs read' => ?_)
    have lt := outcome_rest_lt read
    have le := skip_length_le (.keyword .alors) us
    have lt' := outcome_rest_lt read'
    refine .bind (faithful.later enough .block (by omega)) fun body ws read₂ => ?_
    have lt₂ := outcome_rest_lt read₂
    exact .bind (faithful.later enough .clauses (by omega)) fun more xs _ => .pure _

theorem turn_agrees {α : Type} (c : Call α) (enough : c.depth us ≤ fuel) :
    Agrees s us (turn call c) (c.reader us) := by
  cases c with
  | skipNewlines => exact skipNewlines_agrees faithful enough
  | expression level => exact expression_agrees faithful enough
  | operations c left => exact operations_agrees faithful enough
  | accesses object => exact accesses_agrees faithful enough
  | primary => exact primary_agrees faithful enough
  | arguments => exact arguments_agrees faithful enough
  | entries => exact entries_agrees faithful enough
  | statement => exact statement_agrees faithful enough
  | lineOfExpressions => exact lineOfExpressions_agrees faithful enough
  | parameters => exact parameters_agrees faithful enough
  | block => exact block_agrees faithful enough
  | blockBody => exact blockBody_agrees faithful enough
  | clauses => exact clauses_agrees faithful enough
  | statements => exact statements_agrees faithful enough

end Turns

end Miaou.Cursor
