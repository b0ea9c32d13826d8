import Miaou.Proofs.Grammar.Balance
import Miaou.Proofs.Grammar.Skeleton
import Miaou.Script

/-!
Faults are local. What a reader does up to some token does not depend on the tokens behind it: two
scripts that agree up to the token at fault fail alike. The one look-ahead without bound tells the
arguments of a random number from its bounds; until its deciding token is reached, a group is read
in the same way as either.
-/

namespace Miaou.Grammar

abbrev Bounded : Property := Takes (fun _ => true) fun _ => true

/-- Two results are the same as long as they leave a certain token, which is behind `us` in the
one list and behind `us'` in the other. -/
def Agree {α : Type} (t : Token) (us us' : List Token)
    (result result' : Except Failure (α × List Token)) : Prop :=
  (∀ a ys, result = .ok (a, ys ++ t :: us) → result' = .ok (a, ys ++ t :: us')) ∧
    ∀ cause ys, result = .error ⟨cause, ys ++ t :: us⟩ → result' = .error ⟨cause, ys ++ t :: us'⟩

/-- Other tokens behind a token that is not passed over make no difference. -/
def Determined : Property := fun r ts =>
  ∀ xs t us us', ts = xs ++ t :: us → Agree t us us' (r ts) (r (xs ++ t :: us'))

def Local : Property := fun r ts => Bounded r ts ∧ Determined r ts

theorem Bounded.ok {α : Type} {r : Reader α} {ts us : List Token} {a : α} (h : Bounded r ts)
    (read : r ts = .ok (a, us)) : us <:+ ts := by
  obtain ⟨taken, rfl, -⟩ := h.1 a us read
  exact List.suffix_append _ _

theorem Bounded.error {α : Type} {r : Reader α} {ts : List Token} {failure : Failure}
    (h : Bounded r ts) (read : r ts = .error failure) : failure.rest <:+ ts := by
  obtain ⟨-, taken, whole, -⟩ := h.2 failure read
  rw [whole]
  exact List.suffix_append _ _

theorem head?_behind {xs : List Token} {t : Token} (us us' : List Token) :
    (xs ++ t :: us').head? = (xs ++ t :: us).head? := by
  cases xs <;> rfl

theorem through {vs ys us : List Token} {t : Token} (behind : ys ++ t :: us <:+ vs) :
    ∃ zs, vs = zs ++ t :: us := by
  obtain ⟨zs, rfl⟩ := behind
  exact ⟨zs ++ ys, by simp⟩

theorem not_behind {us vs ys : List Token} {t : Token} (suffix : vs <:+ us) :
    vs ≠ ys ++ t :: us := by
  rintro rfl
  have le := suffix.length_le
  simp only [List.length_append, List.length_cons] at le
  omega

theorem local_law : Law Local (fun _ => true) fun _ => true where
  alike {α r r' ts} h same := by
    refine ⟨takes_law.alike h.1 same, ?_⟩
    rintro xs t us us' rfl
    rw [same _ rfl, same _ (head?_behind us us')]
    exact h.2 xs t us us' rfl
  done a ts := by
    refine ⟨takes_law.done a ts, ?_⟩
    rintro xs t us us' rfl
    refine ⟨fun b ys read => ?_, fun cause ys read => by cases read⟩
    obtain ⟨rfl, same⟩ := Prod.mk.inj (Except.ok.inj read)
    rw [List.append_cancel_right same]
    rfl
  fail α cause blamed ts := by
    refine ⟨takes_law.fail α blamed ts, ?_⟩
    rintro xs t us us' rfl
    refine ⟨fun b ys read => (by cases read), fun cause' ys read => ?_⟩
    have same : Failure.mk cause (xs ++ t :: us) = ⟨cause', ys ++ t :: us⟩ := Except.error.inj read
    rw [Failure.mk.injEq] at same
    obtain ⟨rfl, same⟩ := same
    rw [List.append_cancel_right same]
    rfl
  pass {u} kind rest := by
    refine ⟨takes_law.pass kind rest, ?_⟩
    intro xs t us us' whole
    refine ⟨fun b ys read => ?_, fun cause ys read => by cases read⟩
    have same : rest = ys ++ t :: us := (Prod.mk.inj (Except.ok.inj read)).2
    cases xs with
    | nil =>
      cases whole
      exact absurd same (not_behind (List.suffix_refl _))
    | cons x xs =>
      have tail : rest = xs ++ t :: us := (List.cons.inj whole).2
      rw [List.append_cancel_right (tail.symm.trans same)]
      rfl
  andThen {α β r next ts} first second := by
    refine ⟨takes_law.andThen first.1 fun a us read => (second a us read).1, ?_⟩
    rintro xs t us us' rfl
    obtain ⟨goes, stops⟩ := first.2 xs t us us' rfl
    cases read : r (xs ++ t :: us) with
    | error failure =>
      have same : r.andThen next (xs ++ t :: us) = .error failure := by
        rw [Reader.andThen, read]
        rfl
      rw [same]
      refine ⟨fun b ys ended => (by cases ended), fun cause ys ended => ?_⟩
      cases ended
      rw [Reader.andThen, stops cause ys read]
      rfl
    | ok found =>
      obtain ⟨a, vs⟩ := found
      have same : r.andThen next (xs ++ t :: us) = next a vs := by rw [Reader.andThen, read]; rfl
      obtain ⟨bounded, determined⟩ := second a vs read
      -- The first reading stopped before the token, so it is the same in both lists.
      have moved (zs : List Token) (place : vs = zs ++ t :: us) :
          r.andThen next (xs ++ t :: us') = next a (zs ++ t :: us') := by
        subst place
        rw [Reader.andThen, goes a zs read]
        rfl
      rw [same]
      refine ⟨fun b ys ended => ?_, fun cause ys ended => ?_⟩
      · obtain ⟨zs, place⟩ := through (bounded.ok ended)
        rw [moved zs place]
        exact (determined zs t us us' place).1 b ys ended
      · obtain ⟨zs, place⟩ := through (bounded.error ended)
        rw [moved zs place]
        exact (determined zs t us us' place).2 cause ys ended

theorem Bounded.expressions (goal : ExprGoal) (ts : List Token) : Bounded goal.reader ts :=
  takes_law.expressions (fun _ _ => rfl) (fun _ _ => rfl)
    (takes_law.looksAhead takes_pointwise fun _ _ => rfl) goal ts

theorem Bounded.behind (level : Level) (e : Expr) (ts : List Token) :
    Bounded (Reader.behind level e) ts :=
  takes_law.behind (fun _ _ => rfl) (fun _ _ => rfl)
    (takes_law.looksAhead takes_pointwise fun _ _ => rfl) level e ts

/-! The look-ahead behind the word for a random number -/

/-- What is read behind the first expression of a group: it goes on with a comma or the closing
parenthesis only. -/
structure GroupTail {α : Type} (next : Expr → Reader α) : Prop where
  bounded (e : Expr) (ts : List Token) : Bounded (next e) ts
  stop (e : Expr) {ts : List Token} (comma : Lacks (.symbol .comma) ts)
    (close : Lacks (.symbol .rightParen) ts) :
    next e ts = .error ⟨.missingDelimiter .rightParen, ts⟩

theorem tail_moreArguments {α : Type} (f : Expr → List Expr → α) :
    GroupTail fun e => Reader.moreArguments.andThen fun es => Reader.done (f e es) where
  bounded e ts := takes_law.map (Bounded.expressions .moreArguments ts) _
  stop e {ts} comma close := by
    have refused : Reader.moreArguments ts = .error ⟨.missingDelimiter .rightParen, ts⟩ := by
      rw [Reader.moreArguments, outcome_moreArguments_end comma, outcome_expect_lacks _ close]
      rfl
    rw [Reader.andThen, refused]
    rfl

theorem tail_close {α : Type} {next : Expr → Reader α}
    (bounded : ∀ e ts, Bounded (next e) ts) :
    GroupTail fun e => (Reader.expect (.symbol .rightParen) (.missingDelimiter .rightParen)).andThen
      fun _ => next e where
  bounded e ts := takes_law.andThen (takes_law.expect rfl rfl ts) fun _ us _ => bounded e us
  stop e {ts} comma close := by
    rw [Reader.andThen, Reader.expect, outcome_expect_lacks _ close]
    rfl

theorem commaAhead_head? {ts us : List Token} (head : us.head? = ts.head?)
    (differ : commaAhead 0 ts ≠ commaAhead 0 us) :
    Lacks (.symbol .comma) ts ∧ Lacks (.symbol .rightParen) ts := by
  cases ts with
  | nil => exact ⟨lacks_nil _, lacks_nil _⟩
  | cons t rest =>
    cases us with
    | nil => cases head
    | cons u us =>
      cases head
      refine ⟨lacks_cons.mpr fun same => differ ?_, lacks_cons.mpr fun same => differ ?_⟩
      · rw [commaAhead, commaAhead]
        simp [same, opensGroup, closesGroup]
      · rw [commaAhead, commaAhead]
        simp [same, opensGroup, closesGroup]

theorem listsArguments_differ {ts us : List Token} (head : us.head? = ts.head?)
    (differ : listsArguments ts ≠ listsArguments us) :
    Lacks (.symbol .rightParen) ts ∧ commaAhead 0 ts ≠ commaAhead 0 us := by
  cases ts with
  | nil =>
    cases us with
    | nil => exact absurd rfl differ
    | cons u us => cases head
  | cons t rest =>
    cases us with
    | nil => cases head
    | cons u us =>
      cases head
      rw [listsArguments, listsArguments] at differ
      refine ⟨lacks_cons.mpr fun same => differ ?_, fun same => differ (by rw [same])⟩
      simp [same, closesGroup]

/-- Where the look-aheads into two groups differ, each is read up to the token from which on they
may differ, and is refused there in the same way. -/
theorem groups_alike {α : Type} {next next' : Expr → Reader α} (tail : GroupTail next)
    (tail' : GroupTail next') {xs us us' : List Token} {t : Token}
    (determined : Determined (Reader.expression .lowest) (xs ++ t :: us))
    (differ : commaAhead 0 (xs ++ t :: us) ≠ commaAhead 0 (xs ++ t :: us')) :
    Agree t us us' ((Reader.expression .lowest).andThen next (xs ++ t :: us))
      ((Reader.expression .lowest).andThen next' (xs ++ t :: us')) := by
  obtain ⟨goes, stops⟩ := determined xs t us us' rfl
  cases read : Reader.expression .lowest (xs ++ t :: us) with
  | error failure =>
    have same : (Reader.expression .lowest).andThen next (xs ++ t :: us) = .error failure := by
      rw [Reader.andThen, read]
      rfl
    rw [same]
    refine ⟨fun a ys ended => (by cases ended), fun cause ys ended => ?_⟩
    cases ended
    rw [Reader.andThen, stops cause ys read]
    rfl
  | ok found =>
    obtain ⟨e, vs⟩ := found
    have same : (Reader.expression .lowest).andThen next (xs ++ t :: us) = next e vs := by
      rw [Reader.andThen, read]
      rfl
    -- The first expression ends before the token, where both look-aheads come to the same token.
    have refused (zs : List Token) (place : vs = zs ++ t :: us) :
        next e vs = .error ⟨.missingDelimiter .rightParen, zs ++ t :: us⟩ ∧
        (Reader.expression .lowest).andThen next' (xs ++ t :: us') =
          .error ⟨.missingDelimiter .rightParen, zs ++ t :: us'⟩ := by
      subst place
      have read' := goes e zs read
      have crossed := (derives_expression.mpr read).crossed 0
      have crossed' := (derives_expression.mpr read').crossed 0
      obtain ⟨comma, close⟩ := commaAhead_head? (head?_behind us us') fun same =>
        differ (crossed.trans (same.trans crossed'.symm))
      refine ⟨tail.stop e comma close, ?_⟩
      rw [Reader.andThen, read']
      exact tail'.stop e (comma.alike (head?_behind us us')) (close.alike (head?_behind us us'))
    rw [same]
    refine ⟨fun a ys ended => ?_, fun cause ys ended => ?_⟩
    · obtain ⟨zs, place⟩ := through ((tail.bounded e vs).ok ended)
      rw [(refused zs place).1] at ended
      cases ended
    · obtain ⟨zs, place⟩ := through ((tail.bounded e vs).error ended)
      obtain ⟨first, second⟩ := refused zs place
      rw [first] at ended
      have same := Failure.mk.inj (Except.error.inj ended)
      rw [second, same.1, List.append_cancel_right same.2]

theorem argumentGroup?_paren {p : Token} (mark : p.kind = .symbol .leftParen)
    (inner : List Token) :
    argumentGroup? (p :: inner) = if listsArguments inner then some inner else none := by
  simp [argumentGroup?, mark]

theorem argumentGroup?_lacks {ts : List Token} (h : Lacks (.symbol .leftParen) ts) :
    argumentGroup? ts = none := by
  cases ts with
  | nil => rfl
  | cons t rest => simp [argumentGroup?, lacks_cons.mp h]

section Group

variable {t p : Token} (kind : t.kind = .keyword .aleatoire) (mark : p.kind = .symbol .leftParen)

include kind mark

theorem primary_lists {inner : List Token} (h : listsArguments inner = true) :
    Reader.primary (t :: p :: inner) = Reader.draw t.position inner :=
  outcome_random kind (by rw [argumentGroup?_paren mark, if_pos h])

theorem primary_bounds {inner : List Token} (h : listsArguments inner = false) :
    Reader.primary (t :: p :: inner) = Reader.range t.position (p :: inner) :=
  outcome_range kind (by rw [argumentGroup?_paren mark, if_neg (by simp [h])])

end Group

theorem draw_first (pos : Position) :
    ∃ next : Expr → Reader Expr, GroupTail next ∧
      ∀ {ts}, ts ≠ [] → Lacks (.symbol .rightParen) ts →
        Reader.draw pos ts = (Reader.expression .lowest).andThen next ts := by
  refine ⟨_, tail_moreArguments fun e es => .call pos "aleatoire" (e :: es), ?_⟩
  intro ts ne other
  obtain ⟨q, rest, rfl⟩ := List.exists_cons_of_ne_nil ne
  have first : Reader.arguments (q :: rest) = (Reader.expression .lowest).andThen
      (fun e => Reader.moreArguments.andThen fun es => Reader.done (e :: es)) (q :: rest) :=
    outcome_arguments (lacks_cons.mp other) rest
  refine (Reader.andThen_congr first _).trans ?_
  simp only [Reader.andThen_assoc]
  rfl

theorem range_first (pos : Position) {p : Token} (mark : p.kind = .symbol .leftParen) :
    ∃ next : Expr → Reader Expr, GroupTail next ∧ ∀ inner,
      Reader.range pos (p :: inner) = (Reader.expression .lowest).andThen next inner := by
  let high (low : Expr) : Reader Expr := fun us =>
    (Reader.expression (.chain .sum)).andThen
      (fun e => Reader.done (.call pos "aleatoire" [low, e])) (skipRangeWord us)
  have bounded (e : Expr) (ts : List Token) :
      Bounded ((Reader.behind (.chain .sum) e).andThen high) ts :=
    takes_law.andThen (Bounded.behind _ e ts) fun low us _ =>
      takes_law.skipRangeWord (fun _ _ => rfl) us
        (takes_law.map (Bounded.expressions (.expression _) _) _)
  refine ⟨_, tail_close bounded, fun inner => ?_⟩
  have opening : opens p = true := by simp [opens, mark]
  have group : Reader.primary (p :: inner) = (Reader.expression .lowest).andThen
      (fun e => (Reader.expect (.symbol .rightParen) (.missingDelimiter .rightParen)).andThen
        fun _ => Reader.done e) inner := outcome_group mark inner
  calc Reader.range pos (p :: inner)
      = (Reader.primary.andThen (Reader.behind (.chain .sum))).andThen high (p :: inner) :=
        Reader.andThen_congr (Reader.expression_behind opening inner _) _
    _ = Reader.primary.andThen (fun e => (Reader.behind (.chain .sum) e).andThen high)
          (p :: inner) := congrFun (Reader.andThen_assoc _ _ _) _
    _ = _ := (Reader.andThen_congr group _).trans
          (by simp only [Reader.andThen_assoc]; rfl)

theorem local_looksAhead : LooksAhead Local := by
  intro t rest kind within
  have word : (fun _ : Kind => true) t.kind = true := rfl
  suffices Local (fun us => Reader.primary (t :: us)) rest from
    local_law.step word this fun us => rfl
  have range : Local (Reader.range t.position) rest :=
    local_law.range (fun _ _ => rfl) t.position within
  rcases lacks_or_cons (.symbol .leftParen) rest with lacks | ⟨p, inner, rfl, mark⟩
  · exact local_law.alike range
      fun us head => outcome_range kind (argumentGroup?_lacks (lacks.alike head))
  suffices Local (fun us => Reader.primary (t :: p :: us)) inner from
    local_law.step rfl this fun us => rfl
  have inside := within.after (Nat.lt_succ_self inner.length)
  have draw : Local (Reader.draw t.position) inner :=
    local_law.draw t.position (inside.here .arguments)
  have first : Local (Reader.expression .lowest) inner := inside.here (.expression .lowest)
  obtain ⟨next, tail, bounds⟩ := range_first t.position mark
  obtain ⟨next', tail', given⟩ := draw_first t.position
  constructor
  · cases lists : listsArguments inner with
    | true => exact takes_pointwise draw.1 (primary_lists kind mark lists)
    | false =>
      refine takes_pointwise (takes_law.andThen first.1 fun e us _ => tail.bounded e us) ?_
      exact (primary_bounds kind mark lists).trans (bounds inner)
  rintro xs u us us' rfl
  change Agree u us us' (Reader.primary (t :: p :: (xs ++ u :: us)))
    (Reader.primary (t :: p :: (xs ++ u :: us')))
  have head : (xs ++ u :: us').head? = (xs ++ u :: us).head? := head?_behind us us'
  cases lists : listsArguments (xs ++ u :: us) with
  | true =>
    rw [primary_lists kind mark lists]
    cases lists' : listsArguments (xs ++ u :: us') with
    | true =>
      rw [primary_lists kind mark lists']
      exact draw.2 xs u us us' rfl
    | false =>
      obtain ⟨other, differ⟩ := listsArguments_differ head (by rw [lists, lists']; decide)
      rw [primary_bounds kind mark lists', bounds, given (by simp) other]
      exact groups_alike tail' tail first.2 differ
  | false =>
    rw [primary_bounds kind mark lists]
    cases lists' : listsArguments (xs ++ u :: us') with
    | true =>
      obtain ⟨other, differ⟩ := listsArguments_differ head (by rw [lists, lists']; decide)
      rw [primary_lists kind mark lists', bounds, given (by simp) (other.alike head)]
      exact groups_alike tail tail' first.2 differ
    | false =>
      rw [primary_bounds kind mark lists']
      exact range.2 (p :: xs) u us us' rfl

/-! Scripts -/

namespace Reader

def opened : Reader Program := fun ts =>
  (expect (.keyword .miaou) .missingMiaou).andThen
    (fun t => statements.andThen fun ss => done ⟨ss, t.position⟩) (skipNewlines ts)

end Reader

theorem local_opened (ts : List Token) : Local Reader.opened ts := by
  refine local_law.lines rfl ?_ fun us _ => rfl
  exact local_law.andThen (local_law.expect rfl rfl _) fun t us _ =>
    local_law.map (local_law.statements (fun _ _ => rfl) (fun _ _ => rfl) local_looksAhead
      .statements us) _

theorem script_opened {ts : List Token} (ne : ts ≠ []) :
    script ts = Reader.opened ts >>= fun (p, us) => closing us >>= fun _ => .ok p := by
  rcases lacks_or_cons (.keyword .miaou) (skipNewlines ts) with lacks | ⟨t, rest, found, word⟩
  · rw [script_closed ne lacks, Reader.opened, Reader.andThen, Reader.expect,
      outcome_expect_lacks _ lacks]
    rfl
  · rw [script_open found word, Reader.opened, found, Reader.andThen, Reader.expect,
      outcome_expect _ word]
    change (outcome (statements rest) >>= _) =
      ((outcome (statements rest) >>= _) >>= _ : Except Failure Program)
    cases outcome (statements rest) with
    | error failure => rfl
    | ok read => rfl

theorem opened_rest {ts us : List Token} {p : Program} (h : Reader.opened ts = .ok (p, us)) :
    ∀ t ∈ us.head?, t.kind = .keyword .meow := by
  obtain ⟨⟨t, vs⟩, -, more⟩ := bind_ok h
  obtain ⟨⟨ss, ws⟩, read, same⟩ := bind_ok more
  cases same
  exact statements_rest read

theorem closing_rest {us : List Token} {failure : Failure} (h : closing us = .error failure) :
    failure.rest = us := by
  unfold closing at h
  split at h
  · cases h
    rfl
  · split at h
    · split at h <;> cases h
      rfl
    · cases h
      rfl

theorem closing_premature {t : Token} {us : List Token} {failure : Failure}
    (word : t.kind = .keyword .meow) (h : closing (t :: us) = .error failure) :
    failure.cause = .prematureMeow := by
  rw [closing, if_pos word] at h
  split at h <;> cases h
  rfl

theorem script_rest {ts : List Token} {failure : Failure} (h : script ts = .error failure) :
    failure.rest <:+ ts := by
  by_cases empty : ts = []
  · subst empty
    cases h
    exact List.suffix_refl _
  have bounded := (local_opened ts).1
  rw [script_opened empty] at h
  cases read : Reader.opened ts with
  | error other =>
    rw [read] at h
    cases h
    exact bounded.error read
  | ok found =>
    obtain ⟨p, us⟩ := found
    rw [read] at h
    change (closing us >>= _) = _ at h
    cases closed : closing us with
    | error other =>
      rw [closed] at h
      cases h
      exact closing_rest closed ▸ bounded.ok read
    | ok _ =>
      rw [closed] at h
      cases h

/-- A script is refused alike whatever stands behind the token at fault, unless it is refused for
what follows its closing word. -/
theorem script_local {xs us us' : List Token} {t : Token} {cause : Cause}
    (h : script (xs ++ t :: us) = .error ⟨cause, t :: us⟩) (other : cause ≠ .prematureMeow) :
    script (xs ++ t :: us') = .error ⟨cause, t :: us'⟩ := by
  have ne (vs : List Token) : xs ++ t :: vs ≠ [] := by simp
  rw [script_opened (ne us)] at h
  rw [script_opened (ne us')]
  cases read : Reader.opened (xs ++ t :: us) with
  | error failure =>
    rw [read] at h
    cases h
    have same := ((local_opened _).2 xs t us us' rfl).2 cause [] read
    rw [same]
    rfl
  | ok found =>
    obtain ⟨p, vs⟩ := found
    rw [read] at h
    change (closing vs >>= _) = _ at h
    cases closed : closing vs with
    | error failure =>
      rw [closed] at h
      cases h
      cases closing_rest closed
      exact absurd (closing_premature (opened_rest read t rfl) closed) other
    | ok _ =>
      rw [closed] at h
      cases h

end Miaou.Grammar

namespace Miaou.Program

def FailsAt (ts : List Token) (k : Nat) : Prop :=
  ∃ read failure, body ts = read ++ failure.rest ∧ read.length = k ∧
    Grammar.script (body ts) = .error failure

def Ended (ts : List Token) : Prop := ∃ t ∈ ts.getLast?, t.kind = .layout .eof

theorem kind_of_mem_body {ts : List Token} {t : Token} (h : t ∈ body ts) :
    t.kind ≠ .layout .eof := by simpa [isEof] using List.mem_takeWhile_imp h

theorem Ended.split {ts : List Token} (h : Ended ts) :
    ∃ t behind, ts = body ts ++ t :: behind ∧ t.kind = .layout .eof := by
  obtain ⟨t, ht, last⟩ := h
  have whole := List.takeWhile_append_dropWhile (p := fun t => !isEof t) (l := ts)
  cases rest : ts.dropWhile fun t => !isEof t with
  | nil =>
    rw [rest, List.append_nil] at whole
    have inside : t ∈ body ts := by
      rw [body, whole]
      exact List.mem_of_mem_getLast? ht
    exact absurd last (kind_of_mem_body inside)
  | cons u us =>
    rw [rest] at whole
    have stop := List.head?_dropWhile_not (fun t => !isEof t) ts
    rw [rest] at stop
    exact ⟨u, us, whole.symm, by simpa [isEof] using stop⟩

theorem eq_append_of_take {α : Type} {xs us ys : List α} {x : α}
    (h : ys.take (xs.length + 1) = (xs ++ x :: us).take (xs.length + 1)) :
    ∃ us', ys = xs ++ x :: us' := by
  refine ⟨ys.drop (xs.length + 1), ?_⟩
  have front : (xs ++ x :: us).take (xs.length + 1) = xs ++ [x] := by
    rw [List.take_append, List.take_of_length_le (Nat.le_succ _), Nat.add_sub_cancel_left]
    rfl
  calc ys = ys.take (xs.length + 1) ++ ys.drop (xs.length + 1) := (List.take_append_drop _ ys).symm
    _ = xs ++ x :: ys.drop (xs.length + 1) := by rw [h, front, List.append_assoc]; rfl

theorem body_append_cons {before behind : List Token} {t : Token}
    (inside : ∀ u ∈ before, u.kind ≠ .layout .eof) (text : t.kind ≠ .layout .eof) :
    body (before ++ t :: behind) = before ++ t :: body behind := by
  have kept : ∀ u ∈ before, (!isEof u) = true := by simpa [isEof] using inside
  rw [body, List.takeWhile_append_of_pos kept, List.takeWhile_cons_of_pos (by simpa [isEof])]
  rfl

/-- The fault of a script is at the first token that is not read, and a script that begins alike up
to this token is refused in the same way. -/
theorem refused_alike {ts read : List Token} {failure : Grammar.Failure} (ended : Ended ts)
    (whole : read ++ failure.rest = body ts) (refused : Grammar.script (body ts) = .error failure)
    (other : failure.cause ≠ .prematureMeow) :
    (∃ t ∈ ts[read.length]?, (faultOf (finish ts) failure).position = t.position ∧
      (faultOf (finish ts) failure).text = t.lexeme) ∧
    ∀ ts', ts'.take (read.length + 1) = ts.take (read.length + 1) → ∃ failure',
      body ts' = read ++ failure'.rest ∧ Grammar.script (body ts') = .error failure' ∧
        faultOf (finish ts') failure' = faultOf (finish ts) failure := by
  obtain ⟨e, behind, cut, last⟩ := ended.split
  have inside : ∀ u ∈ read, u.kind ≠ .layout .eof := fun u hu =>
    @kind_of_mem_body ts u (whole ▸ List.mem_append_left _ hu)
  obtain ⟨cause, rest⟩ := failure
  -- The fault is at the end token or at a token before it.
  cases rest with
  | nil =>
    rw [List.append_nil] at whole
    rw [← whole] at cut refused
    have place : finish ts = e.position := cut ▸ finish_append inside last
    refine ⟨⟨e, by simp [cut], place, by simp [Token.lexeme, last, Kind.isLayout, faultOf]⟩, ?_⟩
    intro ts' agree
    rw [cut] at agree
    obtain ⟨behind', rfl⟩ := eq_append_of_take agree
    refine ⟨⟨cause, []⟩, ?_, ?_, ?_⟩
    · rw [body_append inside last, List.append_nil]
    · rw [body_append inside last]
      exact refused
    · rw [finish_append inside last, place]
  | cons t us =>
    rw [← whole] at cut refused
    rw [List.append_assoc, List.cons_append] at cut
    have text : t.kind ≠ .layout .eof := @kind_of_mem_body ts t (by simp [← whole])
    refine ⟨⟨t, by simp [cut], rfl, rfl⟩, ?_⟩
    intro ts' agree
    rw [cut] at agree
    obtain ⟨behind', rfl⟩ := eq_append_of_take agree
    have left := @body_append_cons read behind' t inside text
    refine ⟨⟨cause, t :: body behind'⟩, left, ?_, rfl⟩
    rw [left]
    exact Grammar.script_local refused other

/-- The fault of a script that is refused at some token does not depend on what stands behind this
token. -/
theorem fault_local {ts : List Token} {fault : Fault} (ended : Ended ts)
    (failed : ofTokens ts = .error fault) (other : fault.cause.code.text ≠ "E002") :
    ∃ k, FailsAt ts k ∧ (∃ t ∈ ts[k]?, fault.position = t.position ∧ fault.text = t.lexeme) ∧
      ∀ ts', Ended ts' → ts'.take (k + 1) = ts.take (k + 1) →
        ofTokens ts' = .error fault ∧ FailsAt ts' k ∧ ∀ c file lines,
          Catalog.verdict c file lines (ofTokens ts') =
            Catalog.verdict c file lines (ofTokens ts) := by
  obtain ⟨failure, refused, rfl⟩ := mapError_error failed
  obtain ⟨read, whole⟩ := Grammar.script_rest refused
  rw [cause_faultOf] at other
  have notPremature : failure.cause ≠ .prematureMeow := by
    rintro same
    rw [same] at other
    exact other (by decide)
  obtain ⟨shown, alike⟩ := refused_alike ended whole refused notPremature
  refine ⟨read.length, ⟨read, failure, whole.symm, rfl, refused⟩, shown, fun ts' _ agree => ?_⟩
  obtain ⟨failure', whole', refused', same⟩ := alike ts' agree
  have failed' : ofTokens ts' = .error (faultOf (finish ts) failure) := by
    rw [ofTokens, refused', ← same]
    rfl
  exact ⟨failed', ⟨read, failure', whole', rfl, refused'⟩, fun c file lines => by
    rw [failed', failed]⟩

/-- In a group within a group, a token that cannot stand there is at fault whether the inner group
turns out to be a list of arguments or ends there. -/
theorem fault_local_nested :
    let token (kind : Kind) : Token := ⟨kind, .str "x", .start⟩
    let read : List Kind := [.keyword .miaou, .keyword .aleatoire, .symbol .leftParen,
      .keyword .aleatoire, .symbol .leftParen, .identifier, .identifier]
    let comma : List Kind := [.symbol .comma, .identifier, .symbol .rightParen, .layout .eof]
    ofTokens ((read ++ comma).map token) =
        .error ⟨.missingDelimiter .rightParen, .start, "x"⟩ ∧
      ofTokens ((read ++ [Kind.layout .eof]).map token) =
        .error ⟨.missingDelimiter .rightParen, .start, "x"⟩ := by
  intro token read comma
  have failed : ofTokens ((read ++ comma).map token) =
      .error ⟨.missingDelimiter .rightParen, .start, "x"⟩ := eq_error_of_map (by decide +kernel)
  obtain ⟨k, ⟨before, failure, whole, rfl, refused⟩, -, alike⟩ :=
    fault_local ⟨token (.layout .eof), rfl, rfl⟩ failed (by decide)
  have rest : Grammar.script (body ((read ++ comma).map token)) =
      .error ⟨.missingDelimiter .rightParen,
        ([.identifier, .symbol .comma, .identifier, .symbol .rightParen].map token)⟩ :=
    eq_error_of_map (by decide +kernel)
  cases rest.symm.trans refused
  have place : before.length = 6 := by
    have ten : (body ((read ++ comma).map token)).length = 10 := rfl
    rw [whole, List.length_append] at ten
    exact Nat.add_right_cancel ten
  exact ⟨failed, (alike _ ⟨token (.layout .eof), rfl, rfl⟩ (by rw [place]; rfl)).1⟩

end Miaou.Program
