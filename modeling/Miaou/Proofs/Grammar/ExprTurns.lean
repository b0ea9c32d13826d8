import Miaou.Proofs.Grammar.Agreement

/-!
One turn of the procedures for expressions agrees with the readers of expressions, if the calls
within it do.
-/

namespace Miaou.Cursor

open Grammar

section Turns

variable {s : Source} {fuel : Nat} {call : {α : Type} → Call α → Proc α} {us : List Token}
  (faithful : Faithful s fuel call)

include faithful

theorem skipNewlines_agrees (enough : Call.skipNewlines.depth us ≤ fuel) :
    Agrees s us (skipNewlines call) (Reader.newlines us) := by
  rcases lacks_or_cons (.layout .newline) us with lacks | ⟨t, rest, rfl, mark⟩
  · refine .eat_lacks lacks (by decide) ?_
    rw [Reader.newlines, skipNewlines_lacks lacks]
    exact .pure ()
  · refine .eat_cons mark ?_
    rw [Reader.newlines, skipNewlines_newline mark]
    exact faithful.later enough .skipNewlines (Nat.le_refl _)

theorem operations_agrees {c : Chain} {left : Expr}
    (enough : (Call.operations c left).depth us ≤ fuel) :
    Agrees s us (operations call c left) (Reader.operations c left us) := by
  refine .current ?_
  cases us with
  | nil =>
    have none : c.operator? (s.front []).kind = none := by
      rw [s.front_nil_kind]
      cases c <;> rfl
    have ended := @outcome_operations_end c left [] (by simp)
    simp only [none, Reader.operations, ended]
    exact .pure left
  | cons t rest =>
    rw [s.front_cons]
    cases found : c.operator? t.kind with
    | none =>
      rw [Reader.operations, outcome_operations_end left (by simpa using found)]
      exact .pure left
    | some op =>
      rw [Reader.operations, outcome_operation found]
      refine .advance (.bind (faithful.later enough (.expression c.operands) (Nat.le_refl _))
        fun right vs read => ?_)
      exact faithful.later enough (.operations c _) (Nat.le_of_lt (outcome_rest_lt read))

theorem exponent_agrees {base : Expr} {c : Call Expr} {behind : List Token}
    (le : behind.length < us.length) (enough : c.depth us ≤ fuel) :
    Agrees s behind (exponent call base) (Reader.exponent base behind) := by
  rcases lacks_or_cons (.symbol .starStar) behind with lacks | ⟨t, rest, rfl, mark⟩
  · refine .eat_lacks lacks (by decide) ?_
    rw [Reader.exponent, outcome_exponent_end base lacks]
    exact .pure base
  · refine .eat_cons mark ?_
    rw [Reader.exponent, outcome_exponent mark]
    refine .bind (faithful (.expression .power) rest ?_) fun e vs _ => .pure _
    simp only [Call.depth, List.length_cons, Call.rank, Level.rank] at le enough ⊢
    omega

theorem expression_agrees {level : Level} (enough : (Call.expression level).depth us ≤ fuel) :
    Agrees s us (expression call level) (Reader.expression level us) := by
  cases level with
  | chain c =>
    rw [Reader.expression, outcome_chain]
    refine .bind (faithful.first enough (.expression c.operands) (Level.rank_operands c))
      fun left vs read => ?_
    refine faithful _ vs ?_
    have lt := outcome_rest_lt read
    simp only [Call.depth, Call.rank] at enough ⊢
    omega
  | negation =>
    refine .current ?_
    rcases lacks_or_cons (.keyword .non) us with lacks | ⟨t, rest, rfl, word⟩
    · refine .eat_lacks lacks (by decide) ?_
      rw [Reader.expression, outcome_negation lacks]
      exact faithful.first enough (.expression (.chain .comparison)) (by decide)
    · refine .eat_cons word ?_
      rw [Reader.expression, outcome_not word]
      exact .bind (faithful.later enough (.expression .negation) (Nat.le_refl _))
        fun operand vs _ => .pure _
  | power =>
    rw [Reader.expression, outcome_power]
    exact .bind (faithful.first enough (.expression .sign) (by decide)) fun base vs read =>
      exponent_agrees faithful (outcome_rest_lt read) enough
  | sign =>
    refine .current ?_
    cases us with
    | nil =>
      have none : sign? (s.front []).kind = none := by
        rw [s.front_nil_kind]
        rfl
      simp only [none, Reader.expression, outcome_unsigned (show ∀ t ∈ [].head?, _ by simp)]
      exact faithful.first enough (.expression .postfixes) (by decide)
    | cons t rest =>
      rw [s.front_cons]
      cases found : sign? t.kind with
      | none =>
        rw [Reader.expression, outcome_unsigned (by simpa using found)]
        exact faithful.first enough (.expression .postfixes) (by decide)
      | some op =>
        rw [Reader.expression, outcome_sign found]
        exact .advance (.bind (faithful.later enough (.expression .sign) (Nat.le_refl _))
          fun operand vs _ => .pure _)
  | postfixes =>
    rw [Reader.expression, outcome_postfixes]
    refine .bind (faithful.first enough .primary (by decide)) fun first vs read => ?_
    refine faithful (.accesses first) vs ?_
    have lt := outcome_rest_lt read
    simp only [Call.depth, Call.rank] at enough ⊢
    omega

theorem accesses_agrees {object : Expr} (enough : (Call.accesses object).depth us ≤ fuel) :
    Agrees s us (accesses call object) (Reader.accesses object us) := by
  refine .current ?_
  cases us with
  | nil =>
    rw [Reader.accesses, outcome_accesses_end object (lacks_nil _) (lacks_nil _) (lacks_nil _)]
    simp only [s.front_nil_kind, reduceCtorEq, ↓reduceIte]
    exact .pure object
  | cons t rest =>
    rw [s.front_cons]
    by_cases group : t.kind = .symbol .leftParen
    · rw [if_pos group]
      cases path : object.path? with
      | none =>
        rw [Reader.accesses, outcome_uncalled group path]
        exact .fail _ rfl rfl
      | some function =>
        rw [Reader.accesses, outcome_call group path]
        refine .advance (.bind (faithful.later enough .arguments (Nat.le_refl _))
          fun given vs read => ?_)
        exact faithful.later enough (.accesses _) (Nat.le_of_lt (outcome_rest_lt read))
    rw [if_neg group]
    by_cases item : t.kind = .symbol .leftBracket
    · rw [if_pos item, Reader.accesses, outcome_item item]
      refine .advance (.bind (faithful.later enough (.expression .lowest) (Nat.le_refl _))
        fun index vs read => .bind (.expect (by decide) rfl rfl) fun _ ws read' => ?_)
      have le := Nat.le_of_lt (outcome_rest_lt read)
      exact faithful.later enough (.accesses _)
        (Nat.le_trans (Nat.le_of_lt (outcome_rest_lt read')) le)
    rw [if_neg item]
    by_cases point : t.kind = .symbol .dot
    · rw [if_pos point, Reader.accesses]
      refine .advance (.current ?_)
      cases rest with
      | nil =>
        rw [outcome_unnamed point object (by simp)]
        simp only [s.front_nil_kind]
        exact .miss _ rfl rfl
      | cons name rest =>
        rw [s.front_cons]
        cases named : namesAttribute name.kind with
        | false =>
          rw [outcome_unnamed point object (by simpa using named)]
          exact .miss _ rfl rfl
        | true =>
          rw [outcome_attribute point named]
          exact .advance (faithful.later enough (.accesses _) (Nat.le_succ _))
    rw [if_neg point, Reader.accesses, outcome_accesses_end object (lacks_cons.mpr group)
      (lacks_cons.mpr item) (lacks_cons.mpr point)]
    exact .pure object

omit faithful in
theorem list_agrees {α : Type} {item : Proc α} {more : Proc (List α)}
    {x : Except Failure (α × List Token)}
    {tail : List Token → Except Failure (List α × List Token)}
    (first : ∀ t rest, us = t :: rest → Agrees s us item x)
    (others : ∀ a t vs, x = .ok (a, t :: vs) → t.kind = .symbol .comma →
      Agrees s vs more (tail (t :: vs)))
    (last : ∀ vs, Lacks (.symbol .comma) vs → tail vs =
      outcome (Grammar.expect (.symbol .rightParen) (.missingDelimiter .rightParen) vs) >>=
        fun (_, ws) => .ok ([], ws)) {y : Except Failure (List α × List Token)}
    (none : us = [] → y = .error ⟨.missingDelimiter .rightParen, []⟩)
    (close : ∀ t rest, us = t :: rest → t.kind = .symbol .rightParen → y = .ok ([], rest))
    (some : ∀ t rest, us = t :: rest → t.kind ≠ .symbol .rightParen →
      y = x >>= fun (a, vs) => tail vs >>= fun (as, ws) => .ok (a :: as, ws)) :
    Agrees s us (list item more) y := by
  refine .current ?_
  cases us with
  | nil =>
    simp only [s.front_nil_kind, reduceCtorEq, ↓reduceIte]
    refine .current ?_
    rw [if_pos s.front_nil_kind, none rfl]
    exact .miss _ rfl rfl
  | cons t rest =>
    rw [s.front_cons]
    by_cases closed : t.kind = .symbol .rightParen
    · rw [if_pos closed, close t rest rfl closed]
      exact .advance (.pure [])
    · rw [if_neg closed, some t rest rfl closed]
      refine .current ?_
      intro place left
      rw [s.front_cons, if_neg left.kind]
      refine Agrees.bind (first t rest rfl) (fun a vs read => ?_) place left
      rcases lacks_or_cons (.symbol .comma) vs with lacks | ⟨u, ws, rfl, comma⟩
      · have same : (tail vs >>= fun (as, ws) => .ok (a :: as, ws)) =
            outcome (Grammar.expect (.symbol .rightParen) (.missingDelimiter .rightParen) vs) >>=
              fun (_, ws) => .ok ([a], ws) := by
          rw [last vs lacks]
          cases outcome (Grammar.expect (.symbol .rightParen) _ vs) <;> rfl
        refine .eat_lacks lacks (by decide) ?_
        rw [if_neg Bool.false_ne_true]
        change Agrees s vs _ (tail vs >>= fun (as, ws) => .ok (a :: as, ws))
        rw [same]
        exact .bind (.expect (by decide) rfl rfl) fun _ ws _ => .pure _
      · exact .eat_cons comma (.bind (others a u ws read comma) fun as xs _ => .pure _)

theorem arguments_agrees (enough : Call.arguments.depth us ≤ fuel) :
    Agrees s us (list (call (.expression .lowest)) (call .arguments)) (Reader.arguments us) := by
  refine @list_agrees s us _ _ _ (Reader.expression .lowest us) Reader.moreArguments
    (fun t rest whole => faithful.first enough (.expression .lowest) (by decide)) ?_
    (fun vs lacks => outcome_moreArguments_end lacks) _ ?_ ?_ ?_
  · intro e t vs read comma
    rw [Reader.moreArguments, outcome_moreArguments comma]
    cases us with
    | nil => exact absurd (outcome_rest_lt read) (Nat.not_lt_zero _)
    | cons u us =>
      have lt := outcome_rest_lt read
      simp only [List.length_cons] at lt
      exact faithful.later enough .arguments (by omega)
  · rintro rfl
    rw [Reader.arguments, Grammar.arguments]
    rfl
  · rintro t rest rfl close
    exact outcome_arguments_none close rest
  · rintro t rest rfl other
    exact outcome_arguments other rest

theorem entries_agrees (enough : Call.entries.depth us ≤ fuel) :
    Agrees s us (list (entry call) (call .entries)) (Reader.entries us) := by
  refine @list_agrees s us _ _ _ (Reader.entry us) Reader.moreEntries (fun t rest whole => ?_) ?_
    (fun vs lacks => outcome_moreEntries_end lacks) _ ?_ ?_ ?_
  · subst whole
    refine .bind (faithful.first enough (.expression .lowest) (by decide)) fun key vs read => ?_
    refine .bind (.expect (by decide) rfl rfl) fun _ ws read' => ?_
    have lt := outcome_rest_lt read
    have lt' := outcome_rest_lt read'
    simp only [List.length_cons] at lt
    exact .bind (faithful.later enough (.expression .lowest) (by omega))
      fun value xs _ => .pure _
  · intro e t vs read comma
    have lt := Reader.entry_length read
    rw [Reader.moreEntries, outcome_moreEntries comma]
    cases us with
    | nil => exact absurd lt (Nat.not_lt_zero _)
    | cons u us =>
      simp only [List.length_cons] at lt
      exact faithful.later enough .entries (by omega)
  · rintro rfl
    rw [Reader.entries, Grammar.entries]
    rfl
  · rintro t rest rfl close
    exact outcome_entries_none close rest
  · rintro t rest rfl other
    exact Reader.entries_cons other rest

/-! The look-ahead into a group -/

omit faithful

theorem scanGroup_behind {e : Token} (last : e.kind = .layout .eof) (behind : List Token)
    {us : List Token} (inside : ∀ u ∈ us, u.kind ≠ .layout .eof) {offset : Nat}
    (further : 1 < offset) (depth : Nat) :
    scanGroup offset (depth + 1) (us ++ e :: behind) = commaAhead depth us := by
  induction us generalizing offset depth with
  | nil => simp [scanGroup, commaAhead, last, opensGroup, closesGroup]
  | cons u us ih =>
    rw [List.forall_mem_cons] at inside
    have next := ih inside.2 (Nat.lt_succ_of_lt further)
    rw [List.cons_append, scanGroup, commaAhead.eq_def]
    by_cases opening : opensGroup u.kind = true
    · rw [if_pos opening, next]
      simp only [opening, ↓reduceIte]
    rw [if_neg opening]
    by_cases closing : closesGroup u.kind = true
    · rw [if_pos closing, Nat.add_sub_cancel]
      simp only [opening, closing, ↓reduceIte]
      cases depth with
      | zero => simpa using Nat.ne_of_gt further
      | succ depth => exact next depth
    rw [if_neg closing, next]
    simp [opening, closing, inside.1]

theorem scanGroup_group {p e : Token} (mark : p.kind = .symbol .leftParen)
    (last : e.kind = .layout .eof) (behind : List Token) {inner : List Token}
    (inside : ∀ u ∈ inner, u.kind ≠ .layout .eof) :
    scanGroup 0 0 (p :: inner ++ e :: behind) = Grammar.listsArguments inner := by
  rw [List.cons_append, scanGroup, if_pos (by simp [opensGroup, mark])]
  cases inner with
  | nil => simp [scanGroup, last, opensGroup, closesGroup, Grammar.listsArguments]
  | cons q rest =>
    rw [List.forall_mem_cons] at inside
    have next := scanGroup_behind last behind inside.2 (Nat.lt_succ_self 1)
    rw [List.cons_append, scanGroup, Grammar.listsArguments]
    by_cases opening : opensGroup q.kind = true
    · have closing : closesGroup q.kind = false := by
        rw [opensGroup, Bool.or_eq_true, decide_eq_true_eq, decide_eq_true_eq] at opening
        rcases opening with same | same <;> rw [same] <;> rfl
      rw [if_pos opening, next 1, closing, Bool.false_or, commaAhead_opens opening]
    rw [if_neg opening, commaAhead.eq_def]
    by_cases closing : closesGroup q.kind = true
    · simp [closing]
    · simp [opening, closing, next 0, inside.1]

theorem run_listsArguments {place : Nat} {p : Token} {inner : List Token}
    (mark : p.kind = .symbol .leftParen) (left : s.Left place (p :: inner)) :
    listsArguments.run s place = ⟨.ok (Grammar.listsArguments inner, place), []⟩ := by
  obtain ⟨e, behind, whole, last⟩ := s.split
  obtain ⟨⟨before, cut⟩, sum⟩ := left
  have place_eq : before.length = place := by
    rw [Source.stop, ← cut, List.length_append] at sum
    omega
  have rest : s.tokens.drop place = p :: inner ++ e :: behind := by
    rw [whole, ← cut, List.append_assoc, ← place_eq, List.drop_left]
  have inside : ∀ u ∈ inner, u.kind ≠ .layout .eof := by
    intro u hu
    refine @Program.kind_of_mem_body s.tokens u ?_
    change u ∈ s.text
    rw [← cut]
    simp [hu]
  simp only [listsArguments, rest, scanGroup_group mark last behind inside]

theorem run_givesArguments {place : Nat} (left : s.Left place us) :
    givesArguments.run s place = ⟨.ok ((argumentGroup? us).isSome, place), []⟩ := by
  rw [givesArguments, Proc.run_bind_of_ok (Proc.run_current left)]
  cases us with
  | nil =>
    simp only [s.front_nil_kind, reduceCtorEq, ↓reduceIte]
    rfl
  | cons p inner =>
    rw [s.front_cons]
    by_cases mark : p.kind = .symbol .leftParen
    · rw [if_pos mark, run_listsArguments mark left, argumentGroup?_paren mark]
      cases Grammar.listsArguments inner <;> rfl
    · rw [if_neg mark, argumentGroup?_lacks (lacks_cons.mpr mark)]
      rfl

theorem question_agrees : Agrees s us question (.ok (Grammar.question us)) := by
  refine .current ?_
  cases us with
  | nil =>
    simp only [s.front_nil_kind, reduceCtorEq, ↓reduceIte]
    exact .pure _
  | cons t rest =>
    rw [s.front_cons, Grammar.question]
    by_cases kind : t.kind = .identifier
    · rw [if_pos kind, if_pos kind]
      by_cases texte : Lexeme.lowered t.lexeme.toList = "texte"
      · rw [if_pos texte, texte]
        exact .advance (.pure _)
      by_cases nombre : Lexeme.lowered t.lexeme.toList = "nombre"
      · rw [if_neg texte, if_pos nombre, nombre]
        exact .advance (.pure _)
      rw [if_neg texte, if_neg nombre]
      split
      · contradiction
      · contradiction
      · exact .pure _
    · rw [if_neg kind, if_neg kind]
      exact .pure _

theorem skipRangeWord_agrees : Agrees s us skipRangeWord (.ok ((), Grammar.skipRangeWord us)) := by
  refine .current ?_
  cases us with
  | nil =>
    simp only [s.front_nil_kind, reduceCtorEq, decide_false, Bool.false_and, Bool.false_eq_true,
      ↓reduceIte]
    exact .pure ()
  | cons t rest =>
    rw [s.front_cons, Grammar.skipRangeWord]
    split
    · intro place left
      rw [Proc.run_advance left]
      refine ⟨?_, rfl, left.next⟩
      rintro event (_ | ⟨_, ⟨⟩⟩)
      exact left.next.le
    · exact .pure ()

include faithful

theorem random_agrees {t : Token} {rest : List Token} (kind : t.kind = .keyword .aleatoire)
    (enough : Call.primary.depth (t :: rest) ≤ fuel) :
    Agrees s (t :: rest) (random call t.position) (Reader.primary (t :: rest)) := by
  refine .advance (.look (fun _ left => run_givesArguments left) ?_)
  cases group : argumentGroup? rest with
  | some inner =>
    obtain ⟨p, mark, rfl⟩ := argumentGroup?_cons group
    rw [Reader.primary, outcome_random kind group]
    exact .advance (.bind (faithful.later enough .arguments (Nat.le_succ _))
      fun given vs _ => .pure _)
  | none =>
    rw [Reader.primary, outcome_range kind group]
    refine .bind (faithful.later enough (.expression (.chain .sum)) (Nat.le_refl _))
      fun low vs read => .andThen skipRangeWord_agrees ?_
    have le := Nat.le_of_lt (outcome_rest_lt read)
    exact .bind (faithful.later enough (.expression (.chain .sum))
      (Nat.le_trans (skipRangeWord_length_le vs) le)) fun high ws _ => .pure _

theorem builtin_agrees {t : Token} {rest : List Token} {function : Builtin}
    (kind : t.kind = .builtin function) (enough : Call.primary.depth (t :: rest) ≤ fuel) :
    Agrees s (t :: rest) (builtin call t.position function) (Reader.primary (t :: rest)) := by
  refine .advance ?_
  rcases lacks_or_cons (.symbol .leftParen) rest with lacks | ⟨p, inner, rfl, mark⟩
  · rw [Reader.primary, outcome_builtin_bare kind lacks]
    exact .eat_lacks lacks (by decide)
      (.bind (faithful.later enough (.expression .postfixes) (Nat.le_refl _)) fun e vs _ => .pure _)
  · rw [Reader.primary, outcome_builtin kind mark]
    exact .eat_cons mark
      (.bind (faithful.later enough .arguments (Nat.le_succ _)) fun given vs _ => .pure _)

theorem primary_agrees (enough : Call.primary.depth us ≤ fuel) :
    Agrees s us (primary call) (Reader.primary us) := by
  refine .current ?_
  cases us with
  | nil =>
    rw [Reader.primary, outcome_unknown (by simp)]
    simp only [s.front_nil_kind]
    exact .fail _ rfl rfl
  | cons t rest =>
    rw [s.front_cons]
    cases found : literal? t.kind t.payload with
    | some value =>
      rw [Reader.primary, outcome_literal found]
      exact .advance (.pure _)
    | none =>
      dsimp only
      split
      · rw [Reader.primary, outcome_identifier ‹_›]
        exact .advance (.pure _)
      · rw [Reader.primary, outcome_compteur ‹_›]
        exact .advance (.pure _)
      · rw [Reader.primary, outcome_group ‹_›]
        exact .advance (.bind (faithful.later enough (.expression .lowest) (Nat.le_refl _))
          fun e vs _ => .bind (.expect (by decide) rfl rfl) fun _ ws _ => .pure _)
      · rw [Reader.primary, outcome_list ‹_›]
        refine .advance (.bind (.expect (by decide) rfl rfl) fun _ vs read => ?_)
        exact .bind (faithful.later enough .arguments (Nat.le_of_lt (outcome_rest_lt read)))
          fun items ws _ => .pure _
      · rw [Reader.primary, outcome_dict ‹_›]
        refine .advance (.bind (.expect (by decide) rfl rfl) fun _ vs read => ?_)
        exact .bind (faithful.later enough .entries (Nat.le_of_lt (outcome_rest_lt read)))
          fun pairs ws _ => .pure _
      · rw [Reader.primary, outcome_question ‹_›]
        refine .advance (.andThen question_agrees ?_)
        exact .bind (faithful.later enough (.expression .lowest) (question_length_le rest))
          fun prompt ws _ => .pure _
      · exact random_agrees faithful ‹_› enough
      · exact builtin_agrees faithful ‹_› enough
      · have closed : opens t = false := by
          unfold opens
          split
          case h_8 no _ function same => exact (no function same).elim
          case h_9 => rw [found]; rfl
          all_goals contradiction
        rw [Reader.primary, outcome_unknown (by simpa using closed)]
        exact .fail _ rfl rfl

end Turns

end Miaou.Cursor
