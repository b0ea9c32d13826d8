import Miaou.Proofs.Grammar.Completion
import Miaou.Proofs.Grammar.Extent

/-!
The look-ahead for a comma passes over everything that can be read as an expression, so where it
ends in a group is where the readers of the group find a comma or the closing parenthesis.
-/

namespace Miaou.Grammar

def Phrase.closes : Phrase → Nat
  | .arguments _ | .moreArguments _ | .entries _ | .moreEntries _ => 1
  | _ => 0

theorem commaAhead_kind {t : Token} {kind : Kind} (same : t.kind = kind)
    (h : passes kind = true) (depth : Nat) (rest : List Token) :
    commaAhead depth (t :: rest) = commaAhead depth rest :=
  commaAhead_passes (same ▸ h) depth rest

theorem commaAhead_inner {t : Token} (h : t.kind = .symbol .comma) (depth : Nat)
    (rest : List Token) : commaAhead (depth + 1) (t :: rest) = commaAhead (depth + 1) rest := by
  simp [commaAhead, h, opensGroup, closesGroup]

theorem commaAhead_left {t : Token} {kind : Kind} (same : t.kind = kind)
    (h : opensGroup kind = true) (depth : Nat) (rest : List Token) :
    commaAhead depth (t :: rest) = commaAhead (depth + 1) rest :=
  commaAhead_opens (same ▸ h) depth rest

theorem commaAhead_right {t : Token} {kind : Kind} (same : t.kind = kind)
    (h : closesGroup kind = true) (depth : Nat) (rest : List Token) :
    commaAhead (depth + 1) (t :: rest) = commaAhead depth rest :=
  commaAhead_closes (same ▸ h) depth rest

theorem passes_sign {kind : Kind} {op : UnaryOp} (h : sign? kind = some op) :
    passes kind = true := by
  unfold sign? at h
  split at h <;> first | rfl | cases h

theorem passes_chain {c : Chain} {kind : Kind} {op : BinaryOp} (h : c.operator? kind = some op) :
    passes kind = true := by
  unfold Chain.operator? at h
  split at h <;> first | rfl | cases h

theorem passes_literal {t : Token} {value : Literal}
    (h : literal? t.kind t.payload = some value) : passes t.kind = true := by
  unfold literal? at h
  split at h <;> rename_i kind _ <;> first | (rw [kind]; rfl) | cases h

theorem commaAhead_question (depth : Nat) (ts : List Token) :
    commaAhead depth ts = commaAhead depth (question ts).2 := by
  cases ts with
  | nil => rfl
  | cons t rest =>
    rw [question]
    split
    · rename_i kind
      split
      · exact commaAhead_kind kind rfl depth rest
      · exact commaAhead_kind kind rfl depth rest
      · rfl
    · rfl

theorem commaAhead_skipRangeWord (depth : Nat) (ts : List Token) :
    commaAhead depth ts = commaAhead depth (skipRangeWord ts) := by
  cases ts with
  | nil => rfl
  | cons t rest =>
    rw [skipRangeWord]
    split
    · rename_i word
      rw [Bool.and_eq_true, decide_eq_true_eq] at word
      exact commaAhead_kind word.1 rfl depth rest
    · rfl

/-- The look-ahead goes over a phrase as over nothing, but for the group that the phrase closes. -/
theorem Derives.crossed {phrase : Phrase} {ts rest : List Token} (h : Derives phrase ts rest)
    (depth : Nat) : commaAhead (depth + phrase.closes) ts = commaAhead depth rest := by
  induction h generalizing depth with
  | operationsEnd other => rfl
  | exponentEnd other => rfl
  | accessesEnd noCall noItem noPoint => rfl
  | chain first more ih ih' => exact (ih depth).trans (ih' depth)
  | power first more ih ih' => exact (ih depth).trans (ih' depth)
  | postfixes first more ih ih' => exact (ih depth).trans (ih' depth)
  | affirmed other inner ih => exact ih depth
  | unsigned other inner ih => exact ih depth
  | not word operand ih => exact (commaAhead_kind word rfl depth _).trans (ih depth)
  | sign mark operand ih => exact (commaAhead_passes (passes_sign mark) depth _).trans (ih depth)
  | exponent mark operand ih => exact (commaAhead_kind mark rfl depth _).trans (ih depth)
  | operation mark operand more ih ih' =>
    exact (commaAhead_passes (passes_chain mark) depth _).trans ((ih depth).trans (ih' depth))
  | call mark path group more ih ih' =>
    exact (commaAhead_left mark rfl depth _).trans ((ih depth).trans (ih' depth))
  | item mark inner close more ih ih' =>
    refine (commaAhead_left mark rfl depth _).trans ((ih (depth + 1)).trans ?_)
    exact (commaAhead_right close rfl depth _).trans (ih' depth)
  | «attribute» mark name more ih =>
    refine (commaAhead_kind mark rfl depth _).trans ?_
    exact (commaAhead_passes (passes_attribute name) depth _).trans (ih depth)
  | literal found => exact commaAhead_passes (passes_literal found) depth _
  | identifier kind => exact commaAhead_kind kind rfl depth _
  | compteur kind => exact commaAhead_kind kind rfl depth _
  | group mark inner close ih =>
    refine (commaAhead_left mark rfl depth _).trans ((ih (depth + 1)).trans ?_)
    exact commaAhead_right close rfl depth _
  | list word mark group ih =>
    refine (commaAhead_kind word rfl depth _).trans ?_
    exact (commaAhead_left mark rfl depth _).trans (ih depth)
  | dict word mark group ih =>
    refine (commaAhead_kind word rfl depth _).trans ?_
    exact (commaAhead_left mark rfl depth _).trans (ih depth)
  | question word inner ih =>
    refine (commaAhead_kind word rfl depth _).trans ?_
    exact (commaAhead_question depth _).trans (ih depth)
  | random word call group ih =>
    obtain ⟨u, mark, rfl⟩ := argumentGroup?_cons call
    refine (commaAhead_kind word rfl depth _).trans ?_
    exact (commaAhead_left mark rfl depth _).trans (ih depth)
  | range word call first second ih ih' =>
    refine (commaAhead_kind word rfl depth _).trans ((ih depth).trans ?_)
    exact (commaAhead_skipRangeWord depth _).trans (ih' depth)
  | @builtin t u function given us rest word mark group ih =>
    have plain : passes (.builtin function) = true := rfl
    refine (commaAhead_kind word plain depth _).trans ?_
    exact (commaAhead_left mark rfl depth _).trans (ih depth)
  | @bare t function operand us rest word noCall inner ih =>
    have plain : passes (.builtin function) = true := rfl
    exact (commaAhead_kind word plain depth _).trans (ih depth)
  | argumentsNone close => exact commaAhead_right close rfl depth _
  | argumentsEnd close => exact commaAhead_right close rfl depth _
  | entriesNone close => exact commaAhead_right close rfl depth _
  | entriesEnd close => exact commaAhead_right close rfl depth _
  | argument other first more ih ih' => exact (ih (depth + 1)).trans (ih' depth)
  | argumentsMore mark more ih => exact (commaAhead_inner mark depth _).trans (ih depth)
  | entry other first mark second more ih ih' ih'' =>
    refine (ih (depth + 1)).trans ((commaAhead_kind mark rfl (depth + 1) _).trans ?_)
    exact (ih' (depth + 1)).trans (ih'' depth)
  | entriesMore mark more ih => exact (commaAhead_inner mark depth _).trans (ih depth)

end Miaou.Grammar
