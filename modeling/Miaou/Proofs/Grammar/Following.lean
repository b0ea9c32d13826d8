import Miaou.Proofs.Grammar.Locality
import Miaou.Proofs.Grammar.Plain

/-!
What comes behind an expression. An expression is read in the same way before any other tokens, as
long as these begin with the same token or with one that no expression goes on with; and what is
read at one level is read at every looser one before such a token.
-/

namespace Miaou.Grammar

/-! How a read expression begins -/

/-- The first token is one that the phrase may begin with. -/
def Phrase.Begins : Phrase → List Token → Prop
  | .expression l _, ts => ∃ t ∈ ts.head?, OpensAt l t
  | .primary _, ts => ∃ t ∈ ts.head?, opens t = true
  | _, _ => True

theorem opens_of_literal {t : Token} {value : Literal}
    (h : literal? t.kind t.payload = some value) : opens t = true := by
  unfold opens
  split
  case h_9 => rw [h]; rfl
  all_goals rfl

theorem opens_of_kind {t : Token} {kind : Kind} (same : t.kind = kind)
    (h : ∀ payload pos, opens ⟨kind, payload, pos⟩ = true) : opens t = true := by
  obtain ⟨_, payload, pos⟩ := t
  cases same
  exact h payload pos

theorem Derives.begins {phrase : Phrase} {ts rest : List Token} (h : Derives phrase ts rest) :
    phrase.Begins ts := by
  have looser {l l' : Level} {ts : List Token} (le : l.rank ≤ l'.rank)
      (h : ∃ t ∈ ts.head?, OpensAt l t) : ∃ t ∈ ts.head?, OpensAt l' t := by
    obtain ⟨t, head, opensAt⟩ := h
    exact ⟨t, head, opensAt_mono le opensAt⟩
  induction h with
  | chain first more ih => exact looser (Level.rank_operands _).le ih
  | not word operand => exact ⟨_, rfl, .inr (.inl ⟨word, Nat.le_refl _⟩)⟩
  | affirmed other inner ih => exact looser (by decide) ih
  | power first more ih => exact looser (by decide) ih
  | sign mark operand =>
    exact ⟨_, rfl, .inr (.inr ⟨by rw [mark]; rfl, Nat.le_refl _⟩)⟩
  | unsigned other inner ih => exact looser (by decide) ih
  | postfixes first more ih =>
    obtain ⟨t, head, opens⟩ := ih
    exact ⟨t, head, .inl opens⟩
  | literal found => exact ⟨_, rfl, opens_of_literal found⟩
  | identifier kind => exact ⟨_, rfl, opens_of_kind kind fun _ _ => rfl⟩
  | compteur kind => exact ⟨_, rfl, opens_of_kind kind fun _ _ => rfl⟩
  | group mark => exact ⟨_, rfl, opens_of_kind mark fun _ _ => rfl⟩
  | list word | dict word | question word | random word | range word | builtin word | bare word =>
    exact ⟨_, rfl, opens_of_kind word fun _ _ => rfl⟩
  | _ => trivial

/-! Looser levels -/

theorem halts_of_kind {t : Token} {kind : Kind} (same : t.kind = kind) (h : goesOn? kind = none)
    (rest : List Token) : Halts 9 (t :: rest) := halts_of_none (same ▸ h) 9 rest

theorem Derives.next {l : Level} {e : Expr} {ts us : List Token}
    (h : Derives (.expression l e) ts us) (halts : Halts l.next.rank us) :
    Derives (.expression l.next e) ts us := by
  obtain ⟨t, head, opensAt⟩ := h.begins
  cases l with
  | postfixes =>
    refine .unsigned (fun u hu => ?_) h
    cases Option.mem_unique hu head
    rcases opensAt with opens | ⟨-, high⟩ | ⟨-, high⟩
    · exact sign?_of_opens opens
    · exact absurd high (by decide)
    · exact absurd high (by decide)
  | sign => exact .power h (.exponentEnd (halts.lacks (r := 3) rfl (Nat.le_refl _)))
  | power => exact .chain h (.operationsEnd halts.operator?)
  | negation => exact .chain h (.operationsEnd halts.operator?)
  | chain c =>
    cases c with
    | comparison =>
      refine .affirmed (fun u hu => ?_) h
      cases Option.mem_unique hu head
      rcases opensAt with opens | ⟨-, high⟩ | ⟨mark, -⟩
      · exact kind_ne_non opens
      · exact absurd high (by decide)
      · intro same
        rw [same] at mark
        cases mark
    | disjunction => exact h
    | conjunction => exact .chain h (.operationsEnd halts.operator?)
    | sum => exact .chain h (.operationsEnd halts.operator?)
    | product => exact .chain h (.operationsEnd halts.operator?)

theorem Derives.looser {l l' : Level} {e : Expr} {ts us : List Token}
    (h : Derives (.expression l e) ts us) (le : l.rank ≤ l'.rank) (halts : Halts l'.rank us) :
    Derives (.expression l' e) ts us := by
  obtain ⟨steps, distance⟩ := Nat.exists_eq_add_of_le le
  induction steps generalizing l with
  | zero =>
    cases Level.rank_injective distance
    exact h
  | succ steps ih =>
    have high := l'.rank_le
    have next : l.next.rank = l.rank + 1 := Level.rank_next (by omega)
    exact ih (h.next (halts.mono (by omega))) (by omega) (by omega)

/-! Groups -/

theorem commaAhead_close {t : Token} (h : t.kind = .symbol .rightParen) (rest : List Token) :
    commaAhead 0 (t :: rest) = false := by
  simp [commaAhead, h, opensGroup, closesGroup]

theorem commaAhead_separated {t : Token} (h : t.kind = .symbol .comma) (rest : List Token) :
    commaAhead 0 (t :: rest) = true := by
  simp [commaAhead, h, opensGroup, closesGroup]

theorem OpensAt.closesGroup_eq_false {l : Level} {t : Token} (h : OpensAt l t) :
    closesGroup t.kind = false := by
  cases closes : closesGroup t.kind with
  | false => rfl
  | true =>
    simp only [closesGroup, Bool.or_eq_true, decide_eq_true_eq] at closes
    rcases h with opens | ⟨word, -⟩ | ⟨mark, -⟩
    · rcases closes with same | same <;> simp [Grammar.opens, same, literal?] at opens
    · rcases closes with same | same <;> simp [same] at word
    · rcases closes with same | same <;> simp [same, sign?] at mark

theorem Derives.listsArguments_eq {l : Level} {e : Expr} {ts us : List Token}
    (h : Derives (.expression l e) ts us) : listsArguments ts = commaAhead 0 us := by
  obtain ⟨t, head, opensAt⟩ := h.begins
  obtain ⟨rest, rfl⟩ := List.head?_eq_some_iff.mp head
  rw [listsArguments, opensAt.closesGroup_eq_false, Bool.false_or]
  exact h.crossed 0

theorem Derives.argumentGroup?_eq_none {l : Level} {e : Expr} {ts us : List Token}
    (h : Derives (.expression l e) ts us) : argumentGroup? ts = none := by
  rcases lacks_or_cons (.symbol .leftParen) ts with lacks | ⟨p, inner, rfl, mark⟩
  · exact argumentGroup?_lacks lacks
  · obtain ⟨first, vs, chain, -⟩ := h.leading (by simp [opens, mark])
    cases chain with
    | postfixes operand more =>
      have group := operand.reads
      rw [Phrase.Reads, outcome_group mark] at group
      obtain ⟨⟨e', ws⟩, read, closed⟩ := bind_ok group
      obtain ⟨⟨u, xs⟩, close, -⟩ := bind_ok closed
      obtain ⟨kind, rfl⟩ := outcome_expect_ok close
      have single := (derives_expression.mpr read).listsArguments_eq
      rw [commaAhead_close kind] at single
      rw [argumentGroup?_paren mark, if_neg (by simp [single])]

/-! Other tokens behind -/

def Replaces (us' us : List Token) : Prop := us'.head? = us.head? ∨ Halts 9 us'

namespace Replaces

variable {us us' : List Token} (h : Replaces us' us)

include h

theorem behind (zs : List Token) : Replaces (zs ++ us') (zs ++ us) := by
  cases zs with
  | nil => exact h
  | cons z zs => exact .inl rfl

theorem lacks {kind : Kind} {r : Nat} (found : goesOn? kind = some r) (le : r ≤ 9)
    (lacks : Lacks kind us) : Lacks kind us' := by
  rcases h with same | halts
  · exact lacks.alike same
  · exact halts.lacks found le

theorem operator? {c : Chain} (other : ∀ t ∈ us.head?, c.operator? t.kind = none) :
    ∀ t ∈ us'.head?, c.operator? t.kind = none := by
  rcases h with same | halts
  · rwa [same]
  · exact (halts.mono (Level.rank_le _)).operator?

end Replaces

/-- Where the look-ahead into a group of arguments ends. -/
def Phrase.Settles : Phrase → List Token → List Token → Prop
  | .arguments _, ts, ts' | .moreArguments _, ts, ts' => commaAhead 0 ts' = commaAhead 0 ts
  | _, _, _ => True

theorem head?_own {xs us zs : List Token} (takes : (zs ++ us).length < (xs ++ us).length)
    (us' : List Token) : (xs ++ us').head? = (xs ++ us).head? := by
  cases xs with
  | nil =>
    rw [List.length_append] at takes
    exact absurd takes (Nat.not_lt.mpr (Nat.le_add_left _ _))
  | cons x xs => rfl

theorem exists_cons_own {t : Token} {ts xs us zs : List Token} (whole : t :: ts = xs ++ us)
    (takes : (zs ++ us).length < (xs ++ us).length) : ∃ ys, xs = t :: ys ∧ ts = ys ++ us := by
  cases xs with
  | nil =>
    rw [List.length_append] at takes
    exact absurd takes (Nat.not_lt.mpr (Nat.le_add_left _ _))
  | cons x xs =>
    obtain ⟨rfl, rfl⟩ := List.cons.inj whole
    exact ⟨xs, rfl, rfl⟩

theorem listsArguments_settled {ts ts' : List Token} (head : ts'.head? = ts.head?)
    (settled : commaAhead 0 ts' = commaAhead 0 ts) : listsArguments ts' = listsArguments ts := by
  by_contra differ
  exact (listsArguments_differ head.symm differ).2 settled

theorem question_own {ts xs us zs : List Token} (whole : (question ts).2 = xs ++ us)
    (takes : (zs ++ us).length < (xs ++ us).length) :
    ∃ ys, ts = ys ++ us ∧ ∀ us',
      question (ys ++ us') = ((question ts).1, xs ++ us') := by
  cases ts with
  | nil =>
    rw [← whole] at takes
    exact absurd takes (Nat.not_lt_zero _)
  | cons t ts =>
    rcases Law.question_cons t with ⟨-, name, passed⟩ | kept
    · rw [passed] at whole
      cases whole
      exact ⟨t :: xs, rfl, fun us' => by rw [List.cons_append, passed, passed]⟩
    · rw [kept] at whole
      obtain ⟨ys, rfl, rfl⟩ := exists_cons_own whole takes
      exact ⟨t :: ys, rfl, fun us' => by rw [List.cons_append, kept, kept]⟩

theorem skipRangeWord_own {ts xs us zs : List Token} (whole : skipRangeWord ts = xs ++ us)
    (takes : (zs ++ us).length < (xs ++ us).length) :
    ∃ ys, ts = ys ++ us ∧ ∀ us', skipRangeWord (ys ++ us') = xs ++ us' := by
  cases ts with
  | nil =>
    rw [← whole] at takes
    exact absurd takes (Nat.not_lt_zero _)
  | cons t ts =>
    by_cases word : (t.kind = .identifier && Lexeme.lowered t.lexeme.toList = "a") = true
    · rw [skipRangeWord, if_pos word] at whole
      cases whole
      exact ⟨t :: xs, rfl, fun us' => by rw [List.cons_append, skipRangeWord, if_pos word]⟩
    · rw [skipRangeWord, if_neg word] at whole
      obtain ⟨ys, rfl, rfl⟩ := exists_cons_own whole takes
      exact ⟨t :: ys, rfl, fun us' => by rw [List.cons_append, skipRangeWord, if_neg word]⟩

/-- The tokens `bs` behind a phrase, be it right behind it or farther off, may be replaced: the
phrase is read as before. -/
theorem Derives.replaced {bs bs' : List Token} (replaces : Replaces bs' bs) {phrase : Phrase}
    {ts rest : List Token} (h : Derives phrase ts rest) :
    ∀ zs, rest = zs ++ bs → ∃ xs, ts = xs ++ bs ∧ Derives phrase (xs ++ bs') (zs ++ bs') ∧
      phrase.Settles (xs ++ bs) (xs ++ bs') := by
  induction h with
  | chain first more ih ih' =>
    rintro zs rfl
    obtain ⟨ys, rfl, more', -⟩ := ih' zs rfl
    obtain ⟨xs, rfl, first', -⟩ := ih ys rfl
    exact ⟨xs, rfl, .chain first' more', trivial⟩
  | @not t e us rest word operand ih =>
    rintro zs rfl
    obtain ⟨xs, rfl, operand', -⟩ := ih zs rfl
    exact ⟨t :: xs, rfl, .not word operand', trivial⟩
  | affirmed other inner ih =>
    rintro zs rfl
    obtain ⟨xs, rfl, inner', -⟩ := ih zs rfl
    have head := head?_own (outcome_rest_lt inner.reads) bs'
    exact ⟨xs, rfl, .affirmed (other.alike head) inner', trivial⟩
  | power first more ih ih' =>
    rintro zs rfl
    obtain ⟨ys, rfl, more', -⟩ := ih' zs rfl
    obtain ⟨xs, rfl, first', -⟩ := ih ys rfl
    exact ⟨xs, rfl, .power first' more', trivial⟩
  | @sign t op e us rest mark operand ih =>
    rintro zs rfl
    obtain ⟨xs, rfl, operand', -⟩ := ih zs rfl
    exact ⟨t :: xs, rfl, .sign mark operand', trivial⟩
  | unsigned other inner ih =>
    rintro zs rfl
    obtain ⟨xs, rfl, inner', -⟩ := ih zs rfl
    have head := head?_own (outcome_rest_lt inner.reads) bs'
    exact ⟨xs, rfl, .unsigned (by rwa [head]) inner', trivial⟩
  | postfixes first more ih ih' =>
    rintro zs rfl
    obtain ⟨ys, rfl, more', -⟩ := ih' zs rfl
    obtain ⟨xs, rfl, first', -⟩ := ih ys rfl
    exact ⟨xs, rfl, .postfixes first' more', trivial⟩
  | operationsEnd other =>
    rintro zs rfl
    exact ⟨zs, rfl, .operationsEnd ((replaces.behind zs).operator? other), trivial⟩
  | @operation c t op left right e us vs rest mark operand more ih ih' =>
    rintro zs rfl
    obtain ⟨ys, rfl, more', -⟩ := ih' zs rfl
    obtain ⟨xs, rfl, operand', -⟩ := ih ys rfl
    exact ⟨t :: xs, rfl, .operation mark operand' more', trivial⟩
  | exponentEnd other =>
    rintro zs rfl
    exact ⟨zs, rfl, .exponentEnd ((replaces.behind zs).lacks rfl (by decide) other), trivial⟩
  | @exponent t base e us rest mark operand ih =>
    rintro zs rfl
    obtain ⟨xs, rfl, operand', -⟩ := ih zs rfl
    exact ⟨t :: xs, rfl, .exponent mark operand', trivial⟩
  | accessesEnd noCall noItem noPoint =>
    rintro zs rfl
    have behind := replaces.behind zs
    exact ⟨zs, rfl, .accessesEnd (behind.lacks rfl (by decide) noCall)
      (behind.lacks rfl (by decide) noItem) (behind.lacks rfl (by decide) noPoint), trivial⟩
  | @call t object e function given us vs rest mark path group more ih ih' =>
    rintro zs rfl
    obtain ⟨ys, rfl, more', -⟩ := ih' zs rfl
    obtain ⟨xs, rfl, group', -⟩ := ih ys rfl
    exact ⟨t :: xs, rfl, .call mark path group' more', trivial⟩
  | @item t u object index e us vs rest mark inner close more ih ih' =>
    rintro zs rfl
    obtain ⟨ys, rfl, more', -⟩ := ih' zs rfl
    obtain ⟨xs, rfl, inner', -⟩ := ih (u :: ys) rfl
    exact ⟨t :: xs, rfl, .item mark inner' close more', trivial⟩
  | @«attribute» t u object e us rest mark name more ih =>
    rintro zs rfl
    obtain ⟨xs, rfl, more', -⟩ := ih zs rfl
    exact ⟨t :: u :: xs, rfl, .attribute mark name more', trivial⟩
  | @literal t value rest found =>
    rintro zs rfl
    exact ⟨t :: zs, rfl, .literal found, trivial⟩
  | @identifier t rest kind =>
    rintro zs rfl
    exact ⟨t :: zs, rfl, .identifier kind, trivial⟩
  | @compteur t rest kind =>
    rintro zs rfl
    exact ⟨t :: zs, rfl, .compteur kind, trivial⟩
  | @group t u e us rest mark inner close ih =>
    rintro zs rfl
    obtain ⟨xs, rfl, inner', -⟩ := ih (u :: zs) rfl
    exact ⟨t :: xs, rfl, .group mark inner' close, trivial⟩
  | @list t u items us rest word mark group ih =>
    rintro zs rfl
    obtain ⟨xs, rfl, group', -⟩ := ih zs rfl
    exact ⟨t :: u :: xs, rfl, .list word mark group', trivial⟩
  | @dict t u pairs us rest word mark group ih =>
    rintro zs rfl
    obtain ⟨xs, rfl, group', -⟩ := ih zs rfl
    exact ⟨t :: u :: xs, rfl, .dict word mark group', trivial⟩
  | @question t prompt us rest word inner ih =>
    rintro zs rfl
    obtain ⟨xs, whole, inner', -⟩ := ih zs rfl
    obtain ⟨ys, rfl, asked⟩ := question_own whole (whole ▸ outcome_rest_lt inner.reads)
    have again := asked bs'
    have read : Derives (.primary (.call t.position (Grammar.question (ys ++ bs')).1 [prompt]))
        (t :: (ys ++ bs')) (zs ++ bs') := .question word (by rwa [again])
    rw [again] at read
    exact ⟨t :: ys, rfl, read, trivial⟩
  | @random t given us inner rest word call group ih =>
    rintro zs rfl
    obtain ⟨p, mark, rfl⟩ := argumentGroup?_cons call
    obtain ⟨xs, rfl, group', settled⟩ := ih zs rfl
    have head := head?_own (outcome_rest_lt group.reads) bs'
    rw [argumentGroup?_paren mark, Option.ite_none_right_eq_some] at call
    have lists := (listsArguments_settled head settled).trans call.1
    have call' : argumentGroup? (p :: (xs ++ bs')) = some (xs ++ bs') := by
      rw [argumentGroup?_paren mark, if_pos lists]
    exact ⟨t :: p :: xs, rfl, .random word call' group', trivial⟩
  | @range t low high us vs rest word call first second ih ih' =>
    rintro zs rfl
    obtain ⟨ys, whole, second', -⟩ := ih' zs rfl
    obtain ⟨ys', rfl, skipped⟩ := skipRangeWord_own whole (whole ▸ outcome_rest_lt second.reads)
    obtain ⟨xs, rfl, first', -⟩ := ih ys' rfl
    rw [← skipped bs'] at second'
    exact ⟨t :: xs, rfl, .range word first'.argumentGroup?_eq_none first' second', trivial⟩
  | @builtin t u function given us rest word mark group ih =>
    rintro zs rfl
    obtain ⟨xs, rfl, group', -⟩ := ih zs rfl
    exact ⟨t :: u :: xs, rfl, .builtin word mark group', trivial⟩
  | @bare t function operand us rest word noCall inner ih =>
    rintro zs rfl
    obtain ⟨xs, rfl, inner', -⟩ := ih zs rfl
    have head := head?_own (outcome_rest_lt inner.reads) bs'
    exact ⟨t :: xs, rfl, .bare word (noCall.alike head) inner', trivial⟩
  | @argumentsNone t rest close =>
    rintro zs rfl
    refine ⟨t :: zs, rfl, .argumentsNone close, ?_⟩
    exact (commaAhead_close close _).trans (commaAhead_close close _).symm
  | @argument t e es us vs rest other first more ih ih' =>
    rintro zs rfl
    obtain ⟨ys, rfl, more', settled⟩ := ih' zs rfl
    obtain ⟨xs, whole, first', -⟩ := ih ys rfl
    obtain ⟨xs, rfl, rfl⟩ := exists_cons_own whole (whole ▸ outcome_rest_lt first.reads)
    refine ⟨t :: xs, rfl, .argument other first' more', ?_⟩
    exact (first'.crossed 0).trans (settled.trans (first.crossed 0).symm)
  | @argumentsMore t es us rest mark more ih =>
    rintro zs rfl
    obtain ⟨xs, rfl, more', -⟩ := ih zs rfl
    refine ⟨t :: xs, rfl, .argumentsMore mark more', ?_⟩
    exact (commaAhead_separated mark _).trans (commaAhead_separated mark _).symm
  | @argumentsEnd t rest close =>
    rintro zs rfl
    refine ⟨t :: zs, rfl, .argumentsEnd close, ?_⟩
    exact (commaAhead_close close _).trans (commaAhead_close close _).symm
  | @entriesNone t rest close =>
    rintro zs rfl
    exact ⟨t :: zs, rfl, .entriesNone close, trivial⟩
  | @entry t u key value pairs us vs ws rest other first mark second more ih ih' ih'' =>
    rintro zs rfl
    obtain ⟨ys'', rfl, more', -⟩ := ih'' zs rfl
    obtain ⟨ys', rfl, second', -⟩ := ih' ys'' rfl
    obtain ⟨xs, whole, first', -⟩ := ih (u :: ys') rfl
    have takes : ((u :: ys') ++ bs).length < (xs ++ bs).length :=
      whole ▸ outcome_rest_lt first.reads
    obtain ⟨xs, rfl, rfl⟩ := exists_cons_own whole takes
    exact ⟨t :: xs, rfl, .entry other first' mark second' more', trivial⟩
  | @entriesMore t pairs us rest mark more ih =>
    rintro zs rfl
    obtain ⟨xs, rfl, more', -⟩ := ih zs rfl
    exact ⟨t :: xs, rfl, .entriesMore mark more', trivial⟩
  | @entriesEnd t rest close =>
    rintro zs rfl
    exact ⟨t :: zs, rfl, .entriesEnd close, trivial⟩

theorem Derives.before {phrase : Phrase} {ts us us' : List Token}
    (h : Derives phrase (ts ++ us) us) (replaces : Replaces us' us) :
    Derives phrase (ts ++ us') us' := by
  obtain ⟨xs, whole, read, -⟩ := h.replaced replaces [] rfl
  cases List.append_cancel_right whole
  exact read

theorem Derives.halting {l l' : Level} {e : Expr} {ts us us' : List Token}
    (h : Derives (.expression l e) (ts ++ us) us) (le : l.rank ≤ l'.rank) (halts : Halts 9 us') :
    Derives (.expression l' e) (ts ++ us') us' :=
  (h.before (.inr halts)).looser le (halts.mono l'.rank_le)

end Miaou.Grammar
