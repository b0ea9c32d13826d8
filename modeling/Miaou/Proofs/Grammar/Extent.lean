import Miaou.Proofs.Grammar.StmtLaw

/-!
What readers take and what they can be blamed for. Every reader takes a stretch of tokens from the
front, whether it succeeds or fails, and what it takes is of the kinds that its phrases are made
of.
-/

namespace Miaou.Grammar

/-- The reader takes tokens of some kinds from the front and fails for some causes. -/
def Takes (kinds : Kind → Bool) (causes : Cause → Bool) : Property := fun r ts =>
  (∀ a us, r ts = .ok (a, us) → ∃ taken, ts = taken ++ us ∧ ∀ t ∈ taken, kinds t.kind = true) ∧
    ∀ failure, r ts = .error failure → causes failure.cause = true ∧
      ∃ taken, ts = taken ++ failure.rest ∧ ∀ t ∈ taken, kinds t.kind = true

def Pointwise (P : Property) : Prop :=
  ∀ {α : Type} {r r' : Reader α} {ts : List Token}, P r' ts → r ts = r' ts → P r ts

theorem argumentGroup?_cons {ts inner : List Token} (h : argumentGroup? ts = some inner) :
    ∃ t, t.kind = .symbol .leftParen ∧ ts = t :: inner := by
  cases ts with
  | nil => cases h
  | cons t rest =>
    rw [argumentGroup?] at h
    split at h
    · rename_i mark
      cases h
      rw [Bool.and_eq_true, decide_eq_true_eq] at mark
      exact ⟨t, mark.1, rfl⟩
    · cases h

namespace Reader

def draw (pos : Position) : Reader Expr :=
  arguments.andThen fun es => done (.call pos "aleatoire" es)

def range (pos : Position) : Reader Expr :=
  (expression (.chain .sum)).andThen fun low us =>
    (expression (.chain .sum)).andThen (fun high => done (.call pos "aleatoire" [low, high]))
      (Grammar.skipRangeWord us)

end Reader

namespace Law

variable {P : Property} {kinds : Kind → Bool} {causes : Cause → Bool}

theorem draw (law : Law P kinds causes) (pos : Position) {ts : List Token}
    (given : P Reader.arguments ts) : P (Reader.draw pos) ts := law.map given _

theorem range (law : Law P kinds causes)
    (within : ∀ kind, inExpression kind = true → kinds kind = true) (pos : Position)
    {ts : List Token} (inner : UpTo (ExprGoal.Kept P) ts.length) : P (Reader.range pos) ts := by
  refine law.andThen (inner.here (.expression (.chain .sum))) fun low us read => ?_
  have behind := (inner.after (outcome_rest_lt read)).mono (skipRangeWord_length_le us)
  exact law.skipRangeWord within us (law.map (behind.here (.expression (.chain .sum))) _)

theorem looksAhead (law : Law P kinds causes) (pointwise : Pointwise P)
    (within : ∀ kind, inExpression kind = true → kinds kind = true) : LooksAhead P := by
  intro t rest kind inner
  have word : kinds t.kind = true := within _ (by rw [kind]; rfl)
  cases group : argumentGroup? rest with
  | some given =>
    obtain ⟨u, mark, rfl⟩ := argumentGroup?_cons group
    have call := law.draw t.position ((inner.after (Nat.lt_succ_self _)).here .arguments)
    have opened : P (fun us => Reader.draw t.position us.tail) (u :: given) :=
      law.step (within _ (by rw [mark]; rfl)) call fun us => rfl
    have drawn : P (fun us => Reader.draw t.position us.tail.tail) (t :: u :: given) :=
      law.step word opened fun us => rfl
    exact pointwise drawn (outcome_random kind group)
  | none =>
    have drawn : P (fun us => Reader.range t.position us.tail) (t :: rest) :=
      law.step word (law.range within t.position inner) fun us => rfl
    exact pointwise drawn (outcome_range kind group)

end Law

/-! What is taken -/

variable {kinds : Kind → Bool} {causes : Cause → Bool}

theorem takes_pointwise : Pointwise (Takes kinds causes) := by
  intro α r r' ts h same
  rwa [Takes, same]

theorem takes_law : Law (Takes kinds causes) kinds causes where
  alike h same := takes_pointwise h (same _ rfl)
  done a ts := by
    refine ⟨?_, fun failure read => by cases read⟩
    rintro b us ⟨⟩
    exact ⟨[], rfl, fun t ht => by cases ht⟩
  fail α cause blamed ts := by
    refine ⟨fun a us read => (by cases read), ?_⟩
    rintro failure ⟨⟩
    exact ⟨blamed, [], rfl, fun t ht => by cases ht⟩
  pass {t} kind rest := by
    refine ⟨?_, fun failure read => by cases read⟩
    rintro a us ⟨⟩
    exact ⟨[t], rfl, by simpa using kind⟩
  andThen {α β r next ts} first second := by
    cases read : r ts with
    | error failure =>
      have same : r.andThen next ts = .error failure := by rw [Reader.andThen, read]; rfl
      refine ⟨fun b vs read' => ?_, fun other read' => ?_⟩
      · rw [same] at read'
        cases read'
      · rw [same] at read'
        cases read'
        exact first.2 failure read
    | ok found =>
      obtain ⟨a, us⟩ := found
      have same : r.andThen next ts = next a us := by rw [Reader.andThen, read]; rfl
      obtain ⟨taken, rfl, kept⟩ := first.1 a us read
      obtain ⟨goes, stops⟩ := second a us read
      refine ⟨fun b vs read' => ?_, fun failure read' => ?_⟩
      · obtain ⟨more, rfl, kept'⟩ := goes b vs (same ▸ read')
        exact ⟨taken ++ more, (List.append_assoc ..).symm, List.forall_mem_append.mpr ⟨kept, kept'⟩⟩
      · obtain ⟨blamed, more, whole, kept'⟩ := stops failure (same ▸ read')
        exact ⟨blamed, taken ++ more, by rw [List.append_assoc, ← whole],
          List.forall_mem_append.mpr ⟨kept, kept'⟩⟩

theorem takes_looksAhead (within : ∀ kind, inExpression kind = true → kinds kind = true) :
    LooksAhead (Takes kinds causes) := takes_law.looksAhead takes_pointwise within

theorem Takes.suffix {α : Type} {kinds : Kind → Bool} {causes : Cause → Bool} {r : Reader α}
    {ts us : List Token} {a : α} (h : Takes kinds causes r ts) (read : r ts = .ok (a, us)) :
    us <:+ ts := by
  obtain ⟨taken, rfl, -⟩ := h.1 a us read
  exact List.suffix_append taken us

theorem expression_takes (level : Level) (ts : List Token) :
    Takes inExpression blamesExpression (Reader.expression level) ts :=
  takes_law.expressions (fun _ h => h) (fun _ h => h) (takes_looksAhead fun _ h => h)
    (.expression level) ts

theorem line_takes (ts : List Token) :
    Takes inExpression blamesStatement Reader.lineOfExpressions ts ∧
      Takes inExpression blamesStatement Reader.returned ts ∧
      Takes inExpression blamesStatement Reader.parameters ts := by
  have law := @takes_law inExpression blamesStatement
  have looksAhead : LooksAhead (Takes inExpression blamesStatement) :=
    takes_looksAhead fun _ h => h
  refine ⟨law.lineOfExpressions ?_ ?_ looksAhead ts, law.returned ?_ ?_ looksAhead ts,
    law.parameters ?_ ?_ ts⟩
  all_goals exact fun _ h => h

theorem statement_takes (ts : List Token) :
    Takes inStatement blamesStatement Reader.statement ts :=
  takes_law.statements (fun _ h => h) (fun _ h => h)
    (takes_looksAhead fun _ h => inStatement_of_inExpression h) .statement ts

theorem statements_takes (ts : List Token) :
    Takes inStatement blamesStatement Reader.statements ts :=
  takes_law.statements (fun _ h => h) (fun _ h => h)
    (takes_looksAhead fun _ h => inStatement_of_inExpression h) .statements ts

end Miaou.Grammar
