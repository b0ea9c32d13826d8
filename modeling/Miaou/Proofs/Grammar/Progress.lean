import Miaou.Diagnostic.Standard
import Miaou.Proofs.Grammar.StmtTurns

/-!
Reading with a cursor comes to an end. On enough fuel, a procedure that begins before an end token
does what the reader of the tokens from there on does: its place never passes the first end token,
so that no token behind the last one is asked for, and no loop is left for want of progress.
-/

namespace Miaou.Cursor

open Grammar

theorem run_faithful (s : Source) (fuel : Nat) : Faithful s fuel (run fuel) := by
  induction fuel with
  | zero => exact fun c us lt => absurd lt (Nat.not_lt_zero _)
  | succ fuel ih => exact fun c us lt => turn_agrees ih c (Nat.le_of_lt_succ lt)

/-! Scripts -/

theorem Agrees.raised {s : Source} {us : List Token} {code : Code} (cause : Cause)
    (same : cause.code = code) (names : cause.expected? = none) (t : Token) (rest : List Token) :
    Agrees s us (Proc.raise code none t : Proc Program) (.error ⟨cause, t :: rest⟩) := by
  intro place left
  refine ⟨fun event h => (by cases h), ?_⟩
  exact Reporter.raise_eq_halt ⟨cause, t.position, t.lexeme⟩ same names

theorem closing_agrees {s : Source} {fuel : Nat} {us : List Token}
    (enough : us.length * 16 < fuel) (p : Program) :
    Agrees s us (Proc.current >>= fun closing =>
      if closing.kind = .keyword .meow then Proc.advance >>= fun _ =>
        run fuel .skipNewlines >>= fun _ => Proc.current >>= fun t =>
          if t.kind = .layout .eof then pure p else Proc.raise .prematureMeow none closing
      else Proc.fail .missingMeow)
      (Grammar.closing us >>= fun _ => .ok (p, [])) := by
  refine .current ?_
  cases us with
  | nil =>
    simp only [s.front_nil_kind, reduceCtorEq, ↓reduceIte]
    exact .fail _ rfl rfl
  | cons t rest =>
    rw [s.front_cons, Grammar.closing]
    by_cases word : t.kind = .keyword .meow
    · rw [if_pos word, if_pos word]
      simp only [List.length_cons] at enough
      have lines := run_faithful s fuel .skipNewlines rest
        (by simp only [Call.depth, Call.rank]; omega)
      refine .advance (.andThen lines (.current ?_))
      by_cases quiet : Grammar.skipNewlines rest = []
      · rw [quiet, if_pos rfl, if_pos s.front_nil_kind]
        exact .pure p
      · obtain ⟨u, us, found⟩ := List.exists_cons_of_ne_nil quiet
        rw [if_neg quiet, found]
        intro place left
        rw [s.front_cons, if_neg left.kind]
        exact Agrees.raised .prematureMeow rfl rfl t rest place left
    · rw [if_neg word, if_neg word]
      exact .fail _ rfl rfl

theorem script_agrees (s : Source) {fuel : Nat} (enough : 16 * (s.stop + 1) ≤ fuel) :
    Agrees s s.text (script fuel) (Grammar.script s.text >>= fun p => .ok (p, [])) := by
  have le := skipNewlines_length_le s.text
  have length : s.text.length = s.stop := rfl
  refine .current ?_
  cases whole : s.text with
  | nil =>
    rw [if_pos s.front_nil_kind]
    exact .fail _ rfl rfl
  | cons first others =>
    rw [← whole]
    intro place left
    have text : (s.front s.text).kind ≠ .layout .eof := by
      rw [whole] at left ⊢
      exact left.kind
    have lines := run_faithful s fuel .skipNewlines s.text
      (by simp only [Call.depth, Call.rank]; omega)
    rw [if_neg text]
    refine Agrees.andThen lines (.current ?_) place left
    rcases lacks_or_cons (.keyword .miaou) (Grammar.skipNewlines s.text) with
      lacks | ⟨t, rest, found, word⟩
    · rw [if_neg (Agrees.front_ne lacks (by decide)), script_closed (by simp [whole]) lacks]
      exact .fail _ rfl rfl
    · rw [found, List.length_cons] at le
      rw [found, s.front_cons, if_pos word, script_open found word, bind_assoc]
      refine .advance (.bind (run_faithful s fuel .statements rest ?_) fun ss us read => ?_)
      · simp only [Call.depth, Call.rank]
        omega
      · have lt := outcome_rest_lt read
        have closed := @closing_agrees s fuel us (by omega) ⟨ss, t.position⟩
        dsimp only
        rwa [bind_assoc]

/-! Completed lists of tokens -/

variable (reporter : Reporter)

@[simp] theorem Source.reporter_ofTokens (ts : List Token) :
    (Source.ofTokens reporter ts).reporter = reporter := by
  rw [Source.ofTokens]
  split <;> rfl

theorem Source.tokens_ofTokens (ts : List Token) :
    (Source.ofTokens reporter ts).tokens = ts ∧ Program.Ended ts ∨
      ∃ p, (Source.ofTokens reporter ts).tokens = ts ++ [.eof p] ∧
        p = (ts.getLast?.map Token.position).getD .start := by
  rw [Source.ofTokens]
  split
  · exact .inl ⟨rfl, ‹_›⟩
  · exact .inr ⟨_, rfl, rfl⟩

theorem Source.text_ofTokens (ts : List Token) :
    (Source.ofTokens reporter ts).text = Program.body ts ∧
      Program.finish (Source.ofTokens reporter ts).tokens = Program.finish ts := by
  rcases Source.tokens_ofTokens reporter ts with ⟨same, -⟩ | ⟨p, same, place⟩
  · rw [Source.text, same]
    exact ⟨rfl, rfl⟩
  rw [Source.text, same]
  constructor
  · rw [Program.body, List.takeWhile_append]
    split
    · rename_i all
      rw [Program.body, (List.takeWhile_prefix _).eq_of_length all]
      simp [Program.isEof, Token.eof]
    · rfl
  · rw [Program.finish, Program.finish, List.find?_append]
    cases ts.find? Program.isEof with
    | some t => rfl
    | none => exact place

theorem Source.stop_ofTokens_le (ts : List Token) :
    (Source.ofTokens reporter ts).stop ≤ ts.length := by
  rw [Source.stop, (Source.text_ofTokens reporter ts).1]
  exact (List.takeWhile_prefix _).length_le

theorem parse_ends {ts : List Token} {fuel : Nat} (enough : 16 * (ts.length + 1) ≤ fuel) :
    (∀ event ∈ (parse reporter fuel ts).log, event.Within (Source.ofTokens reporter ts).stop) ∧
      (parse reporter fuel ts).result.map Prod.fst =
        (Program.ofTokens ts).mapError reporter.halt := by
  have most : 16 * ((Source.ofTokens reporter ts).stop + 1) ≤ fuel := by
    have le := Source.stop_ofTokens_le reporter ts
    omega
  obtain ⟨log, ends⟩ := script_agrees (Source.ofTokens reporter ts) most 0
    ⟨List.suffix_refl _, Nat.zero_add _⟩
  refine ⟨log, ?_⟩
  obtain ⟨text, finish⟩ := Source.text_ofTokens reporter ts
  rw [parse, ends.result, text, finish, Source.reporter_ofTokens, Program.ofTokens]
  cases Grammar.script (Program.body ts) <;> rfl

def Call.takes : {α : Type} → Call α → Bool
  | _, .expression _ | _, .primary | _, .arguments | _, .entries | _, .statement | _, .parameters
  | _, .block => true
  | _, _ => false

theorem Call.reader_length {α : Type} (c : Call α) {us vs : List Token} {a : α}
    (h : c.reader us = .ok (a, vs)) :
    vs.length ≤ us.length ∧ (c.takes = true → vs.length < us.length) := by
  cases c with
  | skipNewlines =>
    cases h
    exact ⟨skipNewlines_length_le us, fun takes => by cases takes⟩
  | _ =>
    have lt := outcome_rest_lt h
    exact ⟨by omega, fun takes => by first | exact lt | cases takes⟩

theorem run_moves (s : Source) {fuel place : Nat} (enough : 16 * (s.stop + 1) ≤ fuel)
    (inside : place ≤ s.stop) {α : Type} (c : Call α) :
    let r := (run fuel c).run s place
    r.result ≠ .error .exhausted ∧
    (∀ event ∈ r.log, ∃ place ≤ s.stop, event = .moved place) ∧
    ∀ a place', r.result = .ok (a, place') →
      place' ≤ s.stop ∧ place ≤ place' ∧ (c.takes = true → place < place') := by
  have left := Source.left_drop inside
  have sum := left.2
  have short : c.depth (s.text.drop place) < fuel := by
    have rank := c.rank_lt
    simp only [Call.depth]
    omega
  obtain ⟨log, ends⟩ := run_faithful s fuel c _ short place left
  refine ⟨ends.ne_exhausted, fun event h => (log event h).moved, fun a place' found => ?_⟩
  rw [found] at ends
  obtain ⟨b, vs, read, left'⟩ := ends.left
  obtain ⟨most, less⟩ := c.reader_length read
  have sum' := left'.2
  refine ⟨left'.le, by omega, fun takes => ?_⟩
  have lt := less takes
  omega

/-- A cursor reads every list of tokens to its end, whatever the catalog. On enough fuel, a script
is read as by the readers; the place only ever moves to places up to that of the first end token,
which is a place of the list, and no loop is left for want of progress. A procedure that begins up
to this place comes to an end in the same way; it does not move back, and statements, blocks and
expressions move on. -/
theorem parse_progress (reporter : Reporter) (ts : List Token) {fuel : Nat}
    (enough : 16 * (ts.length + 1) ≤ fuel) :
    let s := Source.ofTokens reporter ts
    (parse reporter fuel ts).result.map Prod.fst = (Program.ofTokens ts).mapError reporter.halt ∧
    ((∃ t ∈ s.tokens[s.stop]?, t.kind = .layout .eof) ∧
      ∀ t ∈ s.tokens.take s.stop, t.kind ≠ .layout .eof) ∧
    (∀ event ∈ (parse reporter fuel ts).log, ∃ place ≤ s.stop, event = .moved place) ∧
    ∀ place ≤ s.stop, ∀ {α : Type} (c : Call α),
      let r := (run fuel c).run s place
      r.result ≠ .error .exhausted ∧
      (∀ event ∈ r.log, ∃ place ≤ s.stop, event = .moved place) ∧
      ∀ a place', r.result = .ok (a, place') →
        place' ≤ s.stop ∧ place ≤ place' ∧ (c.takes = true → place < place') := by
  intro s
  have most : 16 * (s.stop + 1) ≤ fuel := by
    have le : s.stop ≤ ts.length := Source.stop_ofTokens_le reporter ts
    omega
  obtain ⟨log, result⟩ := parse_ends reporter enough
  exact ⟨result, s.first_end, fun event h => (log event h).moved,
    fun place inside α c => run_moves s most inside c⟩

theorem parse_progress_ended :
    let reporter : Reporter := ⟨.standard, "chat.miaou", []⟩
    let token (kind : Kind) : Token := ⟨kind, .str "x", .start⟩
    let ts : List Token := [Kind.keyword .miaou, .keyword .tantQue, .identifier, .symbol .colon,
      .layout .indent, .keyword .ecrire, .layout .eof, .keyword .meow].map token
    (parse reporter 144 ts).result.map Prod.fst =
        .error (reporter.halt ⟨.missingMeow, .start, ""⟩) ∧
      ∀ event ∈ (parse reporter 144 ts).log, ∃ place ≤ 6, event = .moved place := by
  intro reporter token ts
  have refused : Program.ofTokens ts = .error ⟨.missingMeow, .start, ""⟩ :=
    eq_error_of_map (by decide +kernel)
  have stop : (Source.ofTokens reporter ts).stop = 6 := by
    rw [Source.stop, (Source.text_ofTokens reporter ts).1]
    rfl
  obtain ⟨read, -, log, -⟩ := parse_progress reporter ts (Nat.le_refl _)
  rw [refused] at read
  rw [stop] at log
  exact ⟨read, log⟩

end Miaou.Cursor
