import Mathlib.Tactic.Ring
import Miaou.Number.Style
import Miaou.Proofs.Number.Digits
import Miaou.Proofs.Text.Runs

/-!
Numbers with a point read back as the number they were written for. Rounding a quotient does not
depend on how the quotient is written, so only the value of the digits counts.
-/

namespace Miaou

namespace Binary64

theorem roundHalfEven_mul {k : Nat} (h : 0 < k) (num den : Nat) :
    roundHalfEven (k * num) (k * den) = roundHalfEven num den := by
  have left : 2 * (k * num % (k * den)) = k * (2 * (num % den)) := by
    rw [Nat.mul_mod_mul_left]
    ring
  simp only [roundHalfEven, Nat.mul_div_mul_left _ _ h, left, Nat.mul_lt_mul_left h]

theorem nearestRank_mul {k : Nat} (h : 0 < k) (num den : Nat) :
    nearestRank (k * num) (k * den) = nearestRank num den := by
  simp only [nearestRank, Nat.shiftLeft_eq, Nat.mul_assoc, Nat.mul_div_mul_left _ _ h,
    roundHalfEven_mul h]

theorem ofRatio_eq {num den num' den' : Nat} (pos : 0 < den) (pos' : 0 < den')
    (h : num * den' = num' * den) (negative : Bool) :
    ofRatio negative num den = ofRatio negative num' den' := by
  have same : nearestRank num den = nearestRank num' den' := by
    rw [← nearestRank_mul pos' num den, ← nearestRank_mul pos num' den', Nat.mul_comm den' num, h,
      Nat.mul_comm num' den, Nat.mul_comm den' den]
  rw [ofRatio, ofRatio, same]

theorem ofDecimal_eq_ofRatio (negative : Bool) (coefficient : Nat) (e : Int) :
    ofDecimal negative coefficient e =
      ofRatio negative (coefficient * 10 ^ e.toNat) (10 ^ (-e).toNat) := by
  cases e with
  | ofNat e =>
    have none : (-(Int.ofNat e)).toNat = 0 := Int.toNat_eq_zero.mpr (by simp)
    rw [none]
    rfl
  | negSucc e =>
    rw [Int.toNat_negSucc, Nat.pow_zero, Nat.mul_one]
    rfl

theorem ofDecimal_shift (negative : Bool) (coefficient zeros : Nat) (e : Int) :
    ofDecimal negative (coefficient * 10 ^ zeros) e =
      ofDecimal negative coefficient (e + zeros) := by
  rw [ofDecimal_eq_ofRatio, ofDecimal_eq_ofRatio]
  refine ofRatio_eq (Nat.pow_pos (by decide)) (Nat.pow_pos (by decide)) ?_ negative
  have exponents : zeros + e.toNat + (-(e + zeros)).toNat = (e + zeros).toNat + (-e).toNat := by
    omega
  rw [Nat.mul_assoc coefficient, ← Nat.pow_add, Nat.mul_assoc, ← Nat.pow_add, exponents,
    Nat.mul_assoc, ← Nat.pow_add]

@[simp] theorem roundHalfEven_one (n : Nat) : roundHalfEven n 1 = n := by
  simp [roundHalfEven, Nat.mod_one]

@[simp] theorem nearestRank_quanta (rank : Nat) : nearestRank (quanta rank) (2 ^ 1074) = rank := by
  have pos := Nat.two_pow_pos 1074
  rw [nearestRank, Nat.shiftLeft_eq]
  generalize 2 ^ 1074 = scale at pos
  rw [Nat.mul_div_cancel _ pos, Nat.shiftLeft_eq, Nat.mul_comm (quanta rank), roundHalfEven_mul pos]
  have octave_eq : octave = 2 ^ 52 := rfl
  by_cases small : rank < octave
  · have low : rank.log2 ≤ 52 := by
      by_cases zero : rank = 0
      · rw [zero]
        decide
      · exact ((Nat.log2_lt zero).mpr (octave_eq ▸ small)).le
    rw [quanta, if_pos small, Nat.sub_eq_zero_of_le low, Nat.pow_zero, roundHalfEven_one]
    omega
  · have whole := Nat.div_add_mod rank octave
    have part := Nat.mod_lt rank (show 0 < octave by decide)
    have high : 1 ≤ rank / octave := Nat.div_pos (Nat.le_of_not_lt small) (by decide)
    rw [quanta, if_neg small, Nat.shiftLeft_eq]
    generalize rank / octave = shift at whole high
    generalize rank % octave = rest at whole part
    obtain ⟨steps, rfl⟩ := Nat.exists_eq_add_of_le' high
    rw [Nat.add_sub_cancel]
    have ne : (octave + rest) * 2 ^ steps ≠ 0 :=
      Nat.mul_ne_zero (by rw [octave_eq]; omega) (Nat.pow_pos (by decide)).ne'
    have log : ((octave + rest) * 2 ^ steps).log2 = 52 + steps := by
      apply Nat.le_antisymm
      · rw [← Nat.lt_succ_iff, Nat.log2_lt ne, Nat.succ_eq_add_one, Nat.add_right_comm, Nat.pow_add]
        exact Nat.mul_lt_mul_of_pos_right (by omega) (Nat.pow_pos (by decide))
      · rw [Nat.le_log2 ne, Nat.pow_add]
        exact Nat.mul_le_mul_right _ (by omega)
    have exact : roundHalfEven ((octave + rest) * 2 ^ steps) (2 ^ steps) = octave + rest := by
      have scaled := @roundHalfEven_mul (2 ^ steps) (Nat.pow_pos (by decide)) (octave + rest) 1
      rwa [Nat.mul_one, roundHalfEven_one, Nat.mul_comm] at scaled
    rw [log, Nat.add_sub_cancel_left, exact, ← whole]
    ring

end Binary64

namespace Digits

@[simp] theorem value_append_zeros (ds : List Char) (n : Nat) :
    value (ds ++ List.replicate n '0') = value ds * 10 ^ n := by
  induction n with
  | zero => simp
  | succ n ih =>
    rw [List.replicate_succ', ← List.append_assoc, value, List.foldl_append]
    change 10 * value (ds ++ List.replicate n '0') + 0 = _
    rw [ih, Nat.pow_succ]
    ring

@[simp] theorem value_zeros_append (n : Nat) (ds : List Char) :
    value (List.replicate n '0' ++ ds) = value ds := by
  induction n with
  | zero => rfl
  | succ n ih => rw [List.replicate_succ, List.cons_append, ← ih]; rfl

theorem isDigit_zeros (n : Nat) : ∀ d ∈ List.replicate n '0', d.isDigit = true := by
  intro d hd
  rw [List.eq_of_mem_replicate hd]
  rfl

end Digits

namespace Binary64

theorem dropZeros_append (ds : List Char) :
    ∃ n, ds = dropZeros ds ++ List.replicate n '0' := by
  obtain ⟨n, zeros⟩ : ∃ n, ds.reverse.takeWhile (· = '0') = List.replicate n '0' :=
    ⟨_, List.eq_replicate_of_mem fun c hc => by simpa using List.mem_takeWhile_imp hc⟩
  have whole : ds = dropZeros ds ++ (ds.reverse.takeWhile (· = '0')).reverse := by
    rw [dropZeros, ← List.reverse_append, List.takeWhile_append_dropWhile, List.reverse_reverse]
  rw [zeros, List.reverse_replicate] at whole
  exact ⟨n, whole⟩

/-- Digits that read back as the number of the rank. -/
structure Reads (d : Decimal) (rank : Nat) : Prop where
  ne : d.digits ≠ []
  digits : ∀ c ∈ d.digits, c.isDigit = true
  value : ofDecimal false (Digits.value d.digits) (d.point - d.digits.length) =
    .finite false rank

theorem reads_dropZeros {rank coefficient : Nat} {e : Int} (pos : coefficient ≠ 0)
    (h : ofDecimal false coefficient e = .finite false rank) :
    Reads ⟨dropZeros (Digits.ofNat coefficient),
      ((Digits.ofNat coefficient).length : Int) + e⟩ rank := by
  obtain ⟨n, cut⟩ := dropZeros_append (Digits.ofNat coefficient)
  have digits := Digits.isDigit_ofNat coefficient
  have number := Digits.value_ofNat coefficient
  generalize Digits.ofNat coefficient = ds at cut digits number
  generalize dropZeros ds = kept at cut
  subst cut
  rw [Digits.value_append_zeros] at number
  refine ⟨?_, fun c hc => digits c (List.mem_append_left _ hc), ?_⟩
  · rintro rfl
    exact pos (number.symm.trans (Nat.zero_mul _))
  · have shifted : (((kept ++ List.replicate n '0').length : Int) + e) - kept.length = e + n := by
      rw [List.length_append, List.length_replicate, Nat.cast_add]
      ring
    rw [shifted, ← ofDecimal_shift, number, h]

theorem reads_zero : Reads ⟨['0'], 1⟩ 0 := ⟨by simp, by simp, by decide⟩

theorem rounded?_reads {half : Halfway} {rank size kept coefficient : Nat}
    (h : rounded? half rank size kept = some coefficient) :
    ofDecimal false coefficient (((size - kept : Nat) : Int) - 1074) = .finite false rank := by
  have reads (c : Nat) (h : readsBack rank c (size - kept) = true) :
      ofDecimal false c (((size - kept : Nat) : Int) - 1074) = .finite false rank :=
    of_decide_eq_true h
  simp only [rounded?] at h
  split_ifs at h with tie low high low high
  all_goals
    cases h
    first
    | exact reads _ (Bool.and_elim_left low)
    | exact reads _ high

/-- The exact expansion of a number reads back; its digits are those of a power of five. -/
theorem expansion_reads {rank : Nat} (h : rank < rankLimit) :
    ofDecimal false (expansion rank) (-1074) = .finite false rank := by
  have powers (n : Nat) : quanta rank * Nat.pow 5 n * 10 ^ 0 * 2 ^ n = quanta rank * 10 ^ n := by
    rw [Nat.pow_zero, Nat.mul_one, Nat.mul_assoc, Nat.pow_eq, ← Nat.mul_pow]
  rw [ofDecimal_eq_ofRatio, expansion]
  change ofRatio false (quanta rank * Nat.pow 5 1074 * 10 ^ 0) (10 ^ 1074) = _
  rw [ofRatio_eq (Nat.pow_pos (by decide)) (Nat.two_pow_pos 1074) (powers 1074), ofRatio,
    nearestRank_quanta, if_pos h]

theorem quanta_ne_zero {rank : Nat} (h : rank ≠ 0) : quanta rank ≠ 0 := by
  by_cases small : rank < octave
  · rwa [quanta, if_pos small]
  · rw [quanta, if_neg small, Nat.shiftLeft_eq]
    have positive : 0 < octave := by decide
    exact Nat.mul_ne_zero (by omega) (Nat.two_pow_pos _).ne'

theorem expansion_ne_zero {rank : Nat} (h : rank ≠ 0) : expansion rank ≠ 0 := by
  have power (n : Nat) : Nat.pow 5 n ≠ 0 := (Nat.pow_pos (by decide)).ne'
  exact Nat.mul_ne_zero (quanta_ne_zero h) (power 1074)

@[simp] theorem ofDecimal_zero (e : Int) : ofDecimal false 0 e = .finite false 0 := by
  have rank (den : Nat) : nearestRank 0 den = 0 := by
    simp [nearestRank, roundHalfEven, Nat.shiftLeft_eq]
  rw [ofDecimal_eq_ofRatio, Nat.zero_mul, ofRatio, rank, if_pos (by decide)]

theorem shortest_decimal {rank : Nat} (ne : rank ≠ 0) (h : rank < rankLimit) (half : Halfway) :
    ∃ coefficient e, coefficient ≠ 0 ∧ -1074 ≤ e ∧
      ofDecimal false coefficient e = .finite false rank ∧
      shortest half rank = ⟨dropZeros (Digits.ofNat coefficient),
        ((Digits.ofNat coefficient).length : Int) + e⟩ := by
  have whole := expansion_reads h
  have positive := expansion_ne_zero ne
  rw [shortest, if_neg ne]
  -- The expansion and the search stay closed: their values are never needed.
  generalize expansion rank = exact at whole positive
  generalize search : rounded? half rank = chosen
  lift_lets
  intro digits size
  split
  · rename_i kept coefficient found
    obtain ⟨n, -, some⟩ := List.exists_of_findSome?_eq_some found
    obtain ⟨coefficient, rounded, same⟩ := Option.map_eq_some_iff.mp some
    cases same
    rw [← search] at rounded
    have reads := rounded?_reads rounded
    refine ⟨coefficient, _, ?_, by omega, reads, congrArg (Decimal.mk _) (Int.add_sub_assoc ..)⟩
    rintro rfl
    rw [ofDecimal_zero] at reads
    injection reads with _ same
    exact ne same.symm
  · exact ⟨exact, -1074, positive, Int.le_refl _, whole, rfl⟩

theorem shortest_reads {rank : Nat} (h : rank < rankLimit) (half : Halfway) :
    Reads (shortest half rank) rank := by
  by_cases zero : rank = 0
  · subst zero
    exact reads_zero
  · obtain ⟨coefficient, e, ne, -, reads, same⟩ := shortest_decimal zero h half
    rw [same]
    exact reads_dropZeros ne reads

theorem Reads.padded {d : Decimal} {rank : Nat} (h : Reads d rank) {cs : List Char}
    {before behind places : Nat}
    (shape : cs = List.replicate before '0' ++ (d.digits ++ List.replicate behind '0'))
    (point : d.point - d.digits.length = (behind : Int) - places) :
    (∀ c ∈ cs, c.isDigit = true) ∧
      ofDecimal false (Digits.value cs) (-places) = .finite false rank := by
  subst shape
  constructor
  · intro c hc
    rcases List.mem_append.mp hc with hc | hc
    · exact Digits.isDigit_zeros before c hc
    rcases List.mem_append.mp hc with hc | hc
    · exact h.digits c hc
    · exact Digits.isDigit_zeros behind c hc
  · have place : -(places : Int) + behind = d.point - d.digits.length := by omega
    simp [ofDecimal_shift, place, h.value]

end Binary64

namespace NumberStyle

open Binary64

theorem plainText_reads {s : NumberStyle} (keeps : s.keepsFraction = true) {d : Decimal}
    {rank : Nat} (h : Reads d rank) :
    ∃ whole part, s.plainText d = whole ++ '.' :: part ∧ whole ≠ [] ∧ part ≠ [] ∧
      (∀ c ∈ whole ++ part, c.isDigit = true) ∧
      ofDecimal false (Digits.value (whole ++ part)) (-part.length) = .finite false rank := by
  have ne := h.ne
  rw [plainText]
  split
  · rename_i n point
    refine ⟨['0'], zeros (n + 1) ++ d.digits, rfl, by simp, by simp [ne], ?_⟩
    refine @Reads.padded d rank h _ (n + 2) 0 _ ?_ ?_
    · simp [zeros, List.replicate_succ]
    · rw [point, zeros, List.length_append, List.length_replicate]
      omega
  · rename_i point
    refine ⟨['0'], d.digits, rfl, by simp, ne, ?_⟩
    refine @Reads.padded d rank h _ 1 0 _ (by simp) ?_
    rw [point]
    simp
  · rename_i p positive point
    split
    · rename_i short
      refine ⟨d.digits ++ zeros (p - d.digits.length), ['0'], by simp, by simp [ne], by simp, ?_⟩
      refine @Reads.padded d rank h _ 0 (p - d.digits.length + 1) _ ?_ ?_
      · simp [zeros, List.replicate_succ']
      · rw [point]
        simp
        omega
    · rename_i long
      refine ⟨d.digits.take p, d.digits.drop p, rfl, ?_, ?_, ?_⟩
      · rw [Ne, List.take_eq_nil_iff, not_or]
        exact ⟨positive, ne⟩
      · simp
        omega
      · refine @Reads.padded d rank h _ 0 0 _ (by simp) ?_
        rw [point, List.length_drop, Int.ofNat_eq_natCast]
        omega

theorem ofDecimal_cases (negative : Bool) (coefficient : Nat) (e : Int) :
    (∃ rank, rank < rankLimit ∧ ofDecimal negative coefficient e = .finite negative rank) ∨
      ofDecimal negative coefficient e = .infinite negative := by
  rw [ofDecimal_eq_ofRatio, ofRatio]
  split
  · rename_i small
    exact .inl ⟨_, small, rfl⟩
  · exact .inr rfl

end NumberStyle

end Miaou
