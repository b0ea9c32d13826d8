import Miaou.Proofs.Number.Readback

/-!
Which numbers are written with an exponent. Rounding keeps the order of the quotients it rounds, so
the shortest decimal of a number lies on the same side of a power of ten as the number does; where
the point of that decimal stands therefore tells the magnitude of the number.
-/

namespace Miaou

namespace Binary64

theorem roundHalfEven_mono {num num' : Nat} (h : num ≤ num') (den : Nat) :
    roundHalfEven num den ≤ roundHalfEven num' den := by
  have atMost (n : Nat) : roundHalfEven n den ≤ n / den + 1 := by
    simp only [roundHalfEven]
    split_ifs <;> omega
  have atLeast (n : Nat) : n / den ≤ roundHalfEven n den := by
    simp only [roundHalfEven]
    split_ifs <;> omega
  rcases Nat.lt_or_eq_of_le (Nat.div_le_div_right (c := den) h) with less | same
  · exact (atMost num).trans (Nat.le_trans less (atLeast num'))
  · have parts := Nat.div_add_mod num den
    have parts' := Nat.div_add_mod num' den
    rw [same] at parts
    simp only [roundHalfEven, same]
    split_ifs <;> omega

theorem roundHalfEven_mul_one {den : Nat} (pos : 0 < den) (n : Nat) :
    roundHalfEven (n * den) den = n := by
  have scaled := roundHalfEven_mul pos n 1
  rwa [Nat.mul_one, roundHalfEven_one, Nat.mul_comm] at scaled

theorem lt_of_shift {scaled den : Nat} (pos : 0 < den) :
    scaled < 2 * octave * (den * 2 ^ ((scaled / den).log2 - 52)) := by
  have bound : scaled / den < 2 ^ ((scaled / den).log2 - 52 + 53) := by
    by_cases zero : scaled / den = 0
    · rw [zero]
      exact Nat.two_pow_pos _
    · exact (Nat.log2_lt zero).mp (by omega)
  rw [Nat.div_lt_iff_lt_mul pos, Nat.pow_add] at bound
  have octaves : 2 * octave = 2 ^ 53 := rfl
  rw [octaves]
  exact lt_of_lt_of_eq bound (by ring)

theorem le_of_shift {scaled den : Nat} (pos : 0 < den) (h : 0 < (scaled / den).log2 - 52) :
    octave * (den * 2 ^ ((scaled / den).log2 - 52)) ≤ scaled := by
  have ne : scaled / den ≠ 0 := by
    intro zero
    rw [zero] at h
    exact absurd h (by decide)
  have bound : 2 ^ ((scaled / den).log2 - 52 + 52) ≤ scaled / den :=
    (Nat.le_log2 ne).mp (by omega)
  rw [Nat.le_div_iff_mul_le pos, Nat.pow_add] at bound
  have octaves : octave = 2 ^ 52 := rfl
  rw [octaves]
  exact le_of_eq_of_le (by ring) bound

/-- Among quotients of one denominator a larger one has no smaller rank: it is shifted no less, and
one that is shifted further begins a higher octave. -/
theorem nearestRank_mono_left {num num' den : Nat} (pos : 0 < den) (h : num ≤ num') :
    nearestRank num den ≤ nearestRank num' den := by
  simp only [nearestRank, Nat.shiftLeft_eq]
  have scaled := Nat.mul_le_mul_right (2 ^ 1074) h
  generalize num * 2 ^ 1074 = low at scaled
  generalize num' * 2 ^ 1074 = high at scaled
  have quotients : low / den ≤ high / den := Nat.div_le_div_right scaled
  have order : (low / den).log2 - 52 ≤ (high / den).log2 - 52 := by
    refine Nat.sub_le_sub_right ?_ 52
    by_cases zero : low / den = 0
    · rw [zero]
      exact Nat.zero_le _
    · have positive := (Nat.pos_of_ne_zero zero).trans_le quotients
      exact (Nat.le_log2 positive.ne').mpr ((Nat.log2_self_le zero).trans quotients)
  have upper := (@lt_of_shift low den pos).le
  have lower := @le_of_shift high den pos
  generalize (low / den).log2 - 52 = shift at upper order
  generalize (high / den).log2 - 52 = shift' at lower order
  rcases Nat.lt_or_eq_of_le order with further | rfl
  · have below : roundHalfEven low (den * 2 ^ shift) ≤ 2 * octave :=
      (roundHalfEven_mono upper _).trans_eq
        (roundHalfEven_mul_one (Nat.mul_pos pos (Nat.two_pow_pos _)) _)
    have above : octave ≤ roundHalfEven high (den * 2 ^ shift') :=
      (roundHalfEven_mul_one (Nat.mul_pos pos (Nat.two_pow_pos _)) _).symm.trans_le
        (roundHalfEven_mono (lower (Nat.zero_lt_of_lt further)) _)
    calc shift * octave + roundHalfEven low (den * 2 ^ shift)
        ≤ shift * octave + 2 * octave := Nat.add_le_add_left below _
      _ = (shift + 1) * octave + octave := by ring
      _ ≤ shift' * octave + octave := Nat.add_le_add_right (Nat.mul_le_mul_right _ further) _
      _ ≤ shift' * octave + roundHalfEven high (den * 2 ^ shift') := Nat.add_le_add_left above _
  · exact Nat.add_le_add_left (roundHalfEven_mono scaled _) _

theorem nearestRank_mono {num num' den den' : Nat} (pos : 0 < den) (pos' : 0 < den')
    (h : num * den' ≤ num' * den) : nearestRank num den ≤ nearestRank num' den' := by
  rw [← nearestRank_mul pos' num den, ← nearestRank_mul pos num' den', Nat.mul_comm den den']
  refine nearestRank_mono_left (Nat.mul_pos pos' pos) ?_
  rwa [Nat.mul_comm den' num, Nat.mul_comm den num']

theorem quanta_strictMono : StrictMono quanta := by
  intro rank rank' less
  by_contra above
  have order := nearestRank_mono_left (Nat.two_pow_pos 1074) (Nat.le_of_not_lt above)
  rw [nearestRank_quanta, nearestRank_quanta] at order
  exact absurd less (Nat.not_lt.mpr order)

/-! Powers of ten -/

theorem length_ofNat_le {n k : Nat} (ne : n ≠ 0) :
    (Digits.ofNat n).length ≤ k ↔ n < 10 ^ k := by
  cases k with
  | zero => simp [Digits.ofNat_ne_nil, ne]
  | succ k => exact Nat.length_toDigits_le_iff (by decide) (Nat.succ_pos k)

/-- The rank of a power of ten. -/
def powerRank (k : Int) : Nat := nearestRank (10 ^ k.toNat) (10 ^ (-k).toNat)

/-- The shortest decimal of a number reaches a power of ten exactly if the number does, provided
that the one of the power itself does. -/
theorem lt_point_iff {half : Halfway} {k : Int} (edge : k < (shortest half (powerRank k)).point)
    {rank : Nat} (ne : rank ≠ 0) (small : rank < rankLimit) :
    k < (shortest half rank).point ↔ powerRank k ≤ rank := by
  obtain ⟨coefficient, e, ne', -, reads, same⟩ := shortest_decimal ne small half
  have value : nearestRank (coefficient * 10 ^ e.toNat) (10 ^ (-e).toNat) = rank := by
    rw [ofDecimal_eq_ofRatio, ofRatio] at reads
    split at reads
    · injection reads
    · cases reads
  have pos (n : Nat) : 0 < 10 ^ n := Nat.pow_pos (by decide)
  have size := @length_ofNat_le coefficient (Digits.ofNat coefficient).length ne'
  have size' := @length_ofNat_le coefficient ((Digits.ofNat coefficient).length - 1) ne'
  have digits := List.length_pos_iff.mpr (Digits.ofNat_ne_nil coefficient)
  have point : (shortest half rank).point = (Digits.ofNat coefficient).length + e := by rw [same]
  generalize (Digits.ofNat coefficient).length = length at point size size' digits
  constructor
  · intro above
    rw [← value]
    refine nearestRank_mono (pos _) (pos _) ?_
    have least : 10 ^ (length - 1) ≤ coefficient := by
      rw [← Nat.not_lt, ← size']
      omega
    calc 10 ^ k.toNat * 10 ^ (-e).toNat
        = 10 ^ (k.toNat + (-e).toNat) := (Nat.pow_add ..).symm
      _ ≤ 10 ^ (length - 1 + (e.toNat + (-k).toNat)) := Nat.pow_le_pow_right (by decide) (by omega)
      _ = 10 ^ (length - 1) * (10 ^ e.toNat * 10 ^ (-k).toNat) := by
        rw [Nat.pow_add, Nat.pow_add 10 e.toNat]
      _ ≤ coefficient * (10 ^ e.toNat * 10 ^ (-k).toNat) := Nat.mul_le_mul_right _ least
      _ = coefficient * 10 ^ e.toNat * 10 ^ (-k).toNat := (Nat.mul_assoc ..).symm
  · intro reaches
    by_contra below
    have order : rank ≤ powerRank k := by
      rw [← value]
      refine nearestRank_mono (pos _) (pos _) ?_
      calc coefficient * 10 ^ e.toNat * 10 ^ (-k).toNat
          = coefficient * (10 ^ e.toNat * 10 ^ (-k).toNat) := Nat.mul_assoc ..
        _ ≤ 10 ^ length * (10 ^ e.toNat * 10 ^ (-k).toNat) :=
          Nat.mul_le_mul_right _ (size.mp (Nat.le_refl _)).le
        _ = 10 ^ (length + (e.toNat + (-k).toNat)) := by rw [Nat.pow_add, Nat.pow_add 10 e.toNat]
        _ ≤ 10 ^ (k.toNat + (-e).toNat) := Nat.pow_le_pow_right (by decide) (by omega)
        _ = 10 ^ k.toNat * 10 ^ (-e).toNat := Nat.pow_add ..
    rw [Nat.le_antisymm reaches order] at edge
    exact below edge

theorem powerRank_low (rank : Nat) : powerRank (-4) ≤ rank ↔ 2 ^ 1074 ≤ quanta rank * 10 ^ 4 := by
  have reached : 2 ^ 1074 ≤ quanta (powerRank (-4)) * 10 ^ 4 := by decide +kernel
  have missed : quanta (powerRank (-4) - 1) * 10 ^ 4 < 2 ^ 1074 := by decide +kernel
  generalize 2 ^ 1074 = one at reached missed
  constructor
  · intro h
    exact reached.trans (Nat.mul_le_mul_right _ (quanta_strictMono.monotone h))
  · intro h
    by_contra below
    have before := quanta_strictMono.monotone (Nat.le_sub_one_of_lt (Nat.lt_of_not_le below))
    exact absurd (h.trans (Nat.mul_le_mul_right _ before)) (Nat.not_le.mpr missed)

theorem powerRank_high (rank : Nat) : rank < powerRank 16 ↔ quanta rank < 10 ^ 16 * 2 ^ 1074 := by
  have exact : quanta (powerRank 16) = 10 ^ 16 * 2 ^ 1074 := by decide +kernel
  rw [← exact, quanta_strictMono.lt_iff_lt]

/-- The number is zero, or at least 0.0001 and below ten to the power 16. -/
def Moderate : Binary64 → Prop
  | .finite false rank =>
    rank = 0 ∨ 2 ^ 1074 ≤ quanta rank * 10 ^ 4 ∧ quanta rank < 10 ^ 16 * 2 ^ 1074
  | _ => False

instance : DecidablePred Moderate := fun x =>
  match x with
  | .finite false _ => inferInstanceAs (Decidable (_ ∨ _))
  | .finite true _ | .nan | .infinite _ => .isFalse id

end Binary64

namespace NumberStyle

open Binary64

theorem literal_plain_iff {rank : Nat} (small : rank < rankLimit) :
    (rank = 0 || literal.plain (shortest literal.half rank).point) = true ↔
      (Binary64.finite false rank).Moderate := by
  rw [Bool.or_eq_true, decide_eq_true_eq, Moderate]
  refine or_congr_right' fun ne => ?_
  have low := @lt_point_iff .up (-4) (by decide +kernel) rank ne small
  have high := @lt_point_iff .up 16 (by decide +kernel) rank ne small
  rw [← powerRank_low, ← powerRank_high, ← Nat.not_le, ← low, ← high, Int.not_lt]
  change (decide _ && decide _) = true ↔ _
  rw [Bool.and_eq_true, decide_eq_true_eq, decide_eq_true_eq]
  rfl

end NumberStyle

end Miaou
