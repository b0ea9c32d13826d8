import Miaou.Diagnostic.Code
import Miaou.Proofs.Grammar.Extent
import Miaou.Proofs.Lines
import Miaou.Proofs.Token.Nesting

/-!
The frame of a script. An accepted script stands between its opening and its closing word, which
occur nowhere else, and the faults of the frame are told from its first token, from the lines and
from the absence of the closing word.
-/

namespace Miaou

/-- The tokens of a script between its opening and its closing word. -/
structure Framed (ts : List Token) : Prop where
  opening : ∃ t ∈ ts.head?, t.kind = .keyword .miaou
  opensOnce : ts.countP (·.kind = .keyword .miaou) = 1
  closesOnce : ts.countP (·.kind = .keyword .meow) = 1
  /-- Only line ends and the end follow the closing word. -/
  ending : ∀ before t behind, ts = before ++ t :: behind → t.kind = .keyword .meow →
    ∀ u ∈ behind, u.kind = .layout .newline ∨ u.kind = .layout .eof

namespace Grammar

theorem statements_rest {ts us : List Token} {ss : List Stmt}
    (h : outcome (statements ts) = .ok (ss, us)) : ∀ t ∈ us.head?, t.kind = .keyword .meow := by
  induction ts using statements.induct generalizing ss us with
  | case1 ts found =>
    rw [outcome_statements_nil found] at h
    cases h
    rintro t ⟨⟩
  | case2 ts t rest found _ word =>
    rw [outcome_statements_close found word] at h
    cases h
    rintro u ⟨⟩
    exact word
  | case3 ts t rest found _ word ih =>
    rw [outcome_statements found word] at h
    obtain ⟨⟨s, vs⟩, first, more⟩ := bind_ok h
    obtain ⟨⟨ss, ws⟩, others, same⟩ := bind_ok more
    cases same
    exact ih vs (outcome_rest_lt first) others

/-- How a script is refused: it is empty, it does not begin with its opening word, its body is
refused or it does not end behind the body. -/
theorem script_error {ts : List Token} {failure : Failure} (h : script ts = .error failure) :
    ts = [] ∧ failure = ⟨.emptyScript, []⟩ ∨
    ts ≠ [] ∧ Lacks (.keyword .miaou) (skipNewlines ts) ∧
      failure = ⟨.missingMiaou, skipNewlines ts⟩ ∨
    ∃ t rest, skipNewlines ts = t :: rest ∧ t.kind = .keyword .miaou ∧
      (outcome (statements rest) = .error failure ∨
        ∃ ss us, outcome (statements rest) = .ok (ss, us) ∧ closing us = .error failure) := by
  by_cases empty : ts = []
  · subst empty
    cases h
    exact .inl ⟨rfl, rfl⟩
  rcases lacks_or_cons (.keyword .miaou) (skipNewlines ts) with opened | ⟨t, rest, found, word⟩
  · rw [script_closed empty opened] at h
    cases h
    exact .inr (.inl ⟨empty, opened, rfl⟩)
  · refine .inr (.inr ⟨t, rest, found, word, ?_⟩)
    rw [script_open found word] at h
    cases read : outcome (statements rest) with
    | error other =>
      rw [read] at h
      cases h
      exact .inl rfl
    | ok found =>
      obtain ⟨ss, us⟩ := found
      rw [read] at h
      refine .inr ⟨ss, us, rfl, ?_⟩
      change (closing us >>= _) = _ at h
      cases closed : closing us with
      | error other =>
        rw [closed] at h
        cases h
        rfl
      | ok _ =>
        rw [closed] at h
        cases h

theorem script_ok {ts : List Token} {p : Program} (h : script ts = .ok p) :
    ∃ opening rest closing ends, skipNewlines ts = opening :: rest ∧
      opening.kind = .keyword .miaou ∧
      outcome (statements rest) = .ok (p.statements, closing :: ends) ∧
      closing.kind = .keyword .meow ∧ skipNewlines ends = [] := by
  by_cases empty : ts = []
  · subst empty
    cases h
  rcases lacks_or_cons (.keyword .miaou) (skipNewlines ts) with opened | ⟨t, rest, found, word⟩
  · rw [script_closed empty opened] at h
    cases h
  · rw [script_open found word] at h
    obtain ⟨⟨ss, us⟩, read, ended⟩ := bind_ok h
    obtain ⟨_, closed, same⟩ := bind_ok ended
    cases same
    cases us with
    | nil => cases closed
    | cons u ends =>
      rw [closing] at closed
      by_cases last : u.kind = .keyword .meow
      · rw [if_pos last] at closed
        by_cases quiet : skipNewlines ends = []
        · exact ⟨t, rest, u, ends, found, word, read, last, quiet⟩
        · rw [if_neg quiet] at closed
          cases closed
      · rw [if_neg last] at closed
        cases closed

end Grammar

/-! Scripts without content -/

namespace Piece

theorem not_remark_of_content {blanks : List Char} {c : Char} (blank : Blanks blanks)
    (begins : Begins c) (cs : List Char) : ¬ Remark (blanks ++ c :: cs) := by
  induction blanks with
  | nil => exact Layout.not_remark_of_begins begins cs
  | cons b bs ih =>
    rintro ⟨blanks, note, same, inside, shape⟩
    cases blanks with
    | cons d ds =>
      cases (List.cons.inj same).1
      refine ih (fun e he => blank e (List.mem_cons_of_mem _ he)) ⟨ds, note, ?_, ?_, shape⟩
      · exact (List.cons.inj same).2
      · exact fun e he => inside e (List.mem_cons_of_mem _ he)
    | nil =>
      rcases shape with rfl | ⟨words, rfl, -⟩
      · cases same
      · cases (List.cons.inj same).1
        exact absurd (blank '#' List.mem_cons_self) (by decide)

theorem scan_nil_iff {done cs : List Char} {pieces : List Piece} (h : Scan true done cs pieces) :
    pieces = [] ↔ ∀ line ∈ Lines.cut cs, Remark line := by
  generalize fresh : true = f at h
  induction h with
  | finish idle =>
    rw [Lines.cut_line (newline_not_mem_remark idle)]
    simpa using idle
  | idle idle more ih =>
    rw [Lines.cut_newline (newline_not_mem_remark idle), List.forall_mem_cons, ih rfl]
    exact (and_iff_right idle).symm
  | @content done blanks rest c pieces blank begins more =>
    refine iff_of_false (List.cons_ne_nil _ _) fun quiet => ?_
    have inside : ∀ d ∈ blanks, decide (d ≠ '\n') = true := by
      intro d hd
      refine decide_eq_true ?_
      rintro rfl
      exact absurd hd (newline_not_mem_blanks blank)
    have first := quiet _ (Lines.mem_cut _)
    rw [List.takeWhile_append_of_pos inside,
      List.takeWhile_cons_of_pos (by simpa using begins.2.1)] at first
    exact not_remark_of_content blank begins _ first
  | _ => cases fresh

theorem scan_text {done cs : List Char} {pieces : List Piece} (h : Scan true done cs pieces)
    (ne : pieces ≠ []) {finish : Position} {blocks : List Nat} {ts : List Token}
    (read : Layout.tokens finish blocks pieces = .ok ts) : ∃ t ∈ ts, t.kind.isLayout = false := by
  generalize fresh : true = f at h
  induction h with
  | finish idle => exact absurd rfl ne
  | idle idle more ih => exact ih ne read rfl
  | content blank begins more =>
    obtain ⟨marks, still, us, -, inner, rfl⟩ := Layout.tokens_content read
    rcases Layout.scan_begins begins more with ⟨t, pieces, rfl, text⟩ | ⟨fault, rfl⟩
    · obtain ⟨vs, -, rfl⟩ := Layout.tokens_token inner
      exact ⟨t, by simp, text⟩
    · cases inner
  | _ => cases fresh

end Piece

/-! The tokens of a script before its end -/

namespace Program

theorem body_append {before behind : List Token} {t : Token}
    (inside : ∀ u ∈ before, u.kind ≠ .layout .eof) (last : t.kind = .layout .eof) :
    body (before ++ t :: behind) = before := by
  have kept : ∀ u ∈ before, (!isEof u) = true := by simpa [isEof] using inside
  rw [body, List.takeWhile_append_of_pos kept]
  simp [isEof, last]

theorem finish_append {before behind : List Token} {t : Token}
    (inside : ∀ u ∈ before, u.kind ≠ .layout .eof) (last : t.kind = .layout .eof) :
    finish (before ++ t :: behind) = t.position := by
  have none : before.find? isEof = none := by simpa [isEof] using inside
  rw [finish, List.find?_append, none]
  simp [isEof, last]

end Program

theorem tokenize_ended {source : String} {ts : List Token} (h : tokenize source = .ok ts) :
    ∃ body p, ts = body ++ [.eof p] ∧ (∀ t ∈ body, t.kind ≠ .layout .eof) ∧
      Grammar.skipNewlines body = body := by
  have laid := Layout.laidOut_of_laid
    (Layout.laid_of_scan (Piece.scan_ofScript source.toList) h (by simp))
  obtain ⟨body, p, rfl, inside⟩ := laid.ending
  refine ⟨body, p, rfl, inside, Grammar.skipNewlines_lacks ?_⟩
  intro t ht mark
  cases body with
  | nil => cases ht
  | cons u us =>
    cases ht
    obtain ⟨l, hl, -⟩ := laid.lines [] t (us ++ [.eof p]) rfl mark
    cases hl

theorem parse_of_tokenize {source : String} {body : List Token} {p : Position}
    (h : tokenize source = .ok (body ++ [.eof p])) (inside : ∀ t ∈ body, t.kind ≠ .layout .eof) :
    parse source = (Grammar.script body).mapError (Program.faultOf p) := by
  rw [parse, h]
  change Program.ofTokens _ = _
  rw [Program.ofTokens, Program.body_append inside rfl, Program.finish_append inside rfl]
  rfl

/-! The faults of the frame -/

theorem Cause.text_emptyScript (c : Cause) : c.code.text = "E004" ↔ c = .emptyScript := by
  cases c <;> simp only [Cause.code] <;>
    first | decide | exact iff_of_false (by decide) Cause.noConfusion

theorem Cause.text_missingMiaou (c : Cause) : c.code.text = "E000" ↔ c = .missingMiaou := by
  cases c <;> simp only [Cause.code] <;>
    first | decide | exact iff_of_false (by decide) Cause.noConfusion

theorem Cause.text_missingMeow (c : Cause) : c.code.text = "E001" ↔ c = .missingMeow := by
  cases c <;> simp only [Cause.code] <;>
    first | decide | exact iff_of_false (by decide) Cause.noConfusion

theorem eq_error_of_map {α ε : Type} {x : Except ε α} {e : ε}
    (h : (x.map fun _ => ()) = .error e) : x = .error e := by
  cases x with
  | error e' =>
    cases h
    rfl
  | ok a => cases h

theorem mapError_ok {α ε ε' : Type} {f : ε → ε'} {x : Except ε α} {a : α}
    (h : x.mapError f = .ok a) : x = .ok a := by
  cases x with
  | error e => cases h
  | ok b =>
    cases h
    rfl

theorem mapError_error {α ε ε' : Type} {f : ε → ε'} {x : Except ε α} {e' : ε'}
    (h : x.mapError f = .error e') : ∃ e, x = .error e ∧ f e = e' := by
  cases x with
  | error e => exact ⟨e, rfl, Except.error.inj h⟩
  | ok b => cases h

@[simp] theorem Program.cause_faultOf (p : Position) (failure : Grammar.Failure) :
    (faultOf p failure).cause = failure.cause := by
  rw [faultOf]
  split <;> rfl

namespace Grammar

theorem closing_cause {us : List Token} {failure : Failure} (h : closing us = .error failure) :
    failure.cause = .missingMeow ∨ failure.cause = .prematureMeow := by
  unfold closing at h
  split at h
  · cases h
    exact .inl rfl
  · split at h
    · split at h <;> cases h
      exact .inr rfl
    · cases h
      exact .inl rfl

theorem blamesStatement_frame {cause : Cause} (h : blamesStatement cause = true) :
    cause ≠ .emptyScript ∧ cause ≠ .missingMiaou ∧ cause ≠ .missingMeow := by
  refine ⟨?_, ?_, ?_⟩ <;> rintro rfl <;> cases h

theorem script_emptyScript (ts : List Token) :
    (∃ failure, script ts = .error failure ∧ failure.cause = .emptyScript) ↔ ts = [] := by
  constructor
  · rintro ⟨failure, refused, cause⟩
    rcases script_error refused with
      ⟨empty, -⟩ | ⟨-, -, rfl⟩ | ⟨t, rest, -, -, read | ⟨ss, us, -, closed⟩⟩
    · exact empty
    · cases cause
    · exact absurd cause (blamesStatement_frame ((statements_takes rest).2 failure read).1).1
    · rcases closing_cause closed with other | other <;> rw [other] at cause <;> cases cause
  · rintro rfl
    exact ⟨_, rfl, rfl⟩

theorem script_missingMiaou (ts : List Token) :
    (∃ failure, script ts = .error failure ∧ failure.cause = .missingMiaou) ↔
      ts ≠ [] ∧ Lacks (.keyword .miaou) (skipNewlines ts) := by
  constructor
  · rintro ⟨failure, refused, cause⟩
    rcases script_error refused with
      ⟨-, rfl⟩ | ⟨ne, lacks, -⟩ | ⟨t, rest, -, -, read | ⟨ss, us, -, closed⟩⟩
    · cases cause
    · exact ⟨ne, lacks⟩
    · exact absurd cause (blamesStatement_frame ((statements_takes rest).2 failure read).1).2.1
    · rcases closing_cause closed with other | other <;> rw [other] at cause <;> cases cause
  · rintro ⟨ne, lacks⟩
    exact ⟨_, script_closed ne lacks, rfl⟩

theorem script_missingMeow {ts : List Token} {failure : Failure}
    (refused : script ts = .error failure) (cause : failure.cause = .missingMeow)
    (quiet : skipNewlines ts = ts) : failure.rest = [] ∧ ∀ t ∈ ts, t.kind ≠ .keyword .meow := by
  rcases script_error refused with
    ⟨-, rfl⟩ | ⟨-, -, rfl⟩ | ⟨t, rest, found, word, read | ⟨ss, us, read, closed⟩⟩
  · cases cause
  · cases cause
  · exact absurd cause (blamesStatement_frame ((statements_takes rest).2 failure read).1).2.2
  · have last := statements_rest read
    cases us with
    | nil =>
      cases closed
      obtain ⟨taken, rfl, inside⟩ := (statements_takes rest).1 ss [] read
      refine ⟨rfl, ?_⟩
      rw [← quiet, found, List.append_nil, List.forall_mem_cons, word]
      refine ⟨by decide, fun u hu same => ?_⟩
      have kept := inside u hu
      rw [same] at kept
      cases kept
    | cons u us =>
      rw [closing, if_pos (last u rfl)] at closed
      split at closed
      · cases closed
      · cases closed
        cases cause

end Grammar

theorem countP_eq_zero {ts : List Token} {kind : Kind} {kinds : Kind → Bool}
    (h : ∀ t ∈ ts, kinds t.kind = true) (other : kinds kind = false) :
    ts.countP (·.kind = kind) = 0 := by
  rw [List.countP_eq_zero]
  intro t ht same
  have inside := h t ht
  rw [of_decide_eq_true same, other] at inside
  cases inside

theorem cut_at {α : Type} {xs ys before behind : List α} {x y : α}
    (h : before ++ y :: behind = xs ++ x :: ys) (first : y ∉ xs) (last : y ∉ ys) :
    behind = ys := by
  rcases List.append_eq_append_iff.mp h with ⟨between, rfl, same⟩ | ⟨between, rfl, same⟩
  · cases between with
    | nil => exact (List.cons.inj same).2
    | cons z zs =>
      cases (List.cons.inj same).1
      simp at first
  · cases between with
    | nil => exact (List.cons.inj same).2.symm
    | cons z zs =>
      have inside : y ∈ ys := by
        rw [(List.cons.inj same).2]
        simp
      exact absurd inside last

theorem framed_of_script {body : List Token} {p : Program} {q : Position}
    (h : Grammar.script body = .ok p) (quiet : Grammar.skipNewlines body = body) :
    Framed (body ++ [Token.eof q]) := by
  obtain ⟨opening, rest, closing, ends, found, word, read, last, lines⟩ := Grammar.script_ok h
  obtain ⟨taken, rfl, inside⟩ := (Grammar.statements_takes rest).1 _ _ read
  rw [quiet] at found
  subst found
  have behind : ∀ t ∈ ends ++ [Token.eof q], t.kind = .layout .newline ∨ t.kind = .layout .eof := by
    rw [Grammar.skipNewlines, List.dropWhile_eq_nil_iff] at lines
    rw [List.forall_mem_append, List.forall_mem_singleton]
    exact ⟨fun t ht => .inl (by simpa using lines t ht), .inr rfl⟩
  have whole : opening :: (taken ++ closing :: ends) ++ [Token.eof q] =
      opening :: taken ++ closing :: (ends ++ [Token.eof q]) := by simp
  have count (kind : Kind) (framing : Grammar.inStatement kind = false)
      (text : kind.isLayout = false) :
      (opening :: taken ++ closing :: (ends ++ [Token.eof q])).countP (·.kind = kind) =
        (if opening.kind = kind then 1 else 0) + if closing.kind = kind then 1 else 0 := by
    have after : (ends ++ [Token.eof q]).countP (·.kind = kind) = 0 := by
      rw [List.countP_eq_zero]
      intro t ht same
      rcases behind t ht with mark | mark <;>
        rw [← of_decide_eq_true same, mark] at text <;> cases text
    rw [List.countP_append, List.countP_cons, List.countP_cons, after,
      countP_eq_zero inside framing]
    simp
  rw [whole]
  refine ⟨⟨opening, rfl, word⟩, ?_, ?_, ?_⟩
  · rw [count (.keyword .miaou) rfl rfl, word, last]
    rfl
  · rw [count (.keyword .meow) rfl rfl, word, last]
    rfl
  · intro before t after cut mark
    have first : t ∉ opening :: taken := by
      rw [List.mem_cons, not_or]
      refine ⟨?_, fun ht => ?_⟩
      · rintro rfl
        rw [mark] at word
        cases word
      · have kept := inside t ht
        rw [mark] at kept
        cases kept
    have later : t ∉ ends ++ [Token.eof q] := by
      intro ht
      rcases behind t ht with other | other <;> rw [mark] at other <;> cases other
    rw [cut_at cut.symm first later]
    exact behind

theorem parse_refused {source : String} {body : List Token} {q : Position}
    (read : tokenize source = .ok (body ++ [.eof q])) (inside : ∀ t ∈ body, t.kind ≠ .layout .eof)
    (cause : Cause) : (∃ fault, parse source = .error fault ∧ fault.cause = cause) ↔
      ∃ failure, Grammar.script body = .error failure ∧ failure.cause = cause := by
  rw [parse_of_tokenize read inside]
  constructor
  · rintro ⟨fault, h, rfl⟩
    obtain ⟨failure, same, rfl⟩ := mapError_error h
    exact ⟨failure, same, (Program.cause_faultOf q failure).symm⟩
  · rintro ⟨failure, h, rfl⟩
    exact ⟨_, congrArg (Except.mapError _) h, Program.cause_faultOf q failure⟩

theorem tokenize_idle {source : String} {body : List Token} {q : Position}
    (read : tokenize source = .ok (body ++ [.eof q])) :
    body = [] ↔ ∀ line ∈ Lines.cut source.toList, Piece.Remark line := by
  have scan := Piece.scan_ofScript source.toList
  rw [← Piece.scan_nil_iff scan]
  constructor
  · rintro rfl
    by_contra ne
    obtain ⟨t, ht, text⟩ := Piece.scan_text scan ne read
    rw [List.nil_append, List.mem_singleton] at ht
    subst ht
    cases text
  · intro none
    rw [tokenize, none] at read
    cases body with
    | nil => rfl
    | cons t us =>
      have whole := Except.ok.inj read
      simp at whole

/-- The frame of a script. If the script is accepted, it stands between its two words. If it
can be cut into tokens, it is refused as empty (E004) exactly when all its lines are blank or
comments, and for its opening (E000) exactly when it has tokens and the first one is not the
opening word; it is refused for its closing word (E001) only at the end and if this word does not
occur. -/
theorem parse_skeleton (source : String) :
    (∀ p, parse source = .ok p → ∃ ts, tokenize source = .ok ts ∧ Framed ts) ∧
    ∀ ts, tokenize source = .ok ts →
      ((∃ fault, parse source = .error fault ∧ fault.cause.code.text = "E004") ↔
        ∀ line ∈ Lines.cut source.toList, Piece.Remark line) ∧
      ((∃ fault, parse source = .error fault ∧ fault.cause.code.text = "E000") ↔
        (∃ t ∈ ts, t.kind ≠ .layout .eof) ∧ ∀ t ∈ ts.head?, t.kind ≠ .keyword .miaou) ∧
      ∀ fault, parse source = .error fault → fault.cause.code.text = "E001" →
        (∀ t ∈ ts, t.kind ≠ .keyword .meow) ∧
          ∃ t ∈ ts, t.kind = .layout .eof ∧ fault.position = t.position ∧ fault.text = "" := by
  constructor
  · intro p accepted
    obtain ⟨ts, read, -⟩ := Grammar.bind_ok accepted
    obtain ⟨body, q, rfl, inside, quiet⟩ := tokenize_ended read
    rw [parse_of_tokenize read inside] at accepted
    exact ⟨_, read, framed_of_script (mapError_ok accepted) quiet⟩
  intro ts read
  obtain ⟨body, q, rfl, inside, quiet⟩ := tokenize_ended read
  simp only [Cause.text_emptyScript, Cause.text_missingMiaou, Cause.text_missingMeow]
  refine ⟨?_, ?_, ?_⟩
  · rw [parse_refused read inside, Grammar.script_emptyScript, tokenize_idle read]
  · rw [parse_refused read inside, Grammar.script_missingMiaou, quiet]
    cases body with
    | nil => simp [Token.eof]
    | cons t us =>
      have first := inside t List.mem_cons_self
      simp only [ne_eq, List.cons_ne_nil, not_false_eq_true, true_and, Grammar.lacks_cons,
        List.cons_append, List.head?_cons, Option.mem_some_iff, forall_eq']
      exact (and_iff_right ⟨t, List.mem_cons_self, first⟩).symm
  · intro fault h cause
    rw [parse_of_tokenize read inside] at h
    obtain ⟨failure, same, rfl⟩ := mapError_error h
    rw [Program.cause_faultOf] at cause
    obtain ⟨ended, absent⟩ := Grammar.script_missingMeow same cause quiet
    refine ⟨?_, .eof q, by simp, rfl, ?_⟩
    · rw [List.forall_mem_append, List.forall_mem_singleton]
      exact ⟨absent, Kind.noConfusion⟩
    · simp [Program.faultOf, ended, Token.eof]

/-- A script that ends inside a block is refused behind the block, where its closing word is
missed. -/
theorem parse_skeleton_open :
    ∃ ts, tokenize "miaou\nsi x:\n  y" = .ok ts ∧
      parse "miaou\nsi x:\n  y" = .error ⟨.missingMeow, ⟨3, 4⟩, ""⟩ ∧
      ∀ t ∈ ts, t.kind ≠ .keyword .meow := by
  have read : tokenize "miaou\nsi x:\n  y" =
      .ok [⟨.keyword .miaou, .str "miaou", ⟨1, 1⟩⟩, .newline ⟨1, 6⟩,
        ⟨.keyword .si, .str "si", ⟨2, 1⟩⟩, ⟨.identifier, .str "x", ⟨2, 4⟩⟩,
        ⟨.symbol .colon, .str ":", ⟨2, 5⟩⟩, .newline ⟨2, 6⟩, .indent 2 3,
        ⟨.identifier, .str "y", ⟨3, 3⟩⟩, .dedent 0 ⟨3, 4⟩, .eof ⟨3, 4⟩] := by decide +kernel
  have refused : parse "miaou\nsi x:\n  y" = .error ⟨.missingMeow, ⟨3, 4⟩, ""⟩ :=
    eq_error_of_map (by decide +kernel)
  exact ⟨_, read, refused, ((parse_skeleton _).2 _ read).2.2 _ refused (by decide) |>.1⟩

end Miaou
