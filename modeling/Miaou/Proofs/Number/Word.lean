import Miaou.Proofs.Number.Digits

/-!
Arithmetic in words, which end at a largest number `top`. A difference below zero and a sum or a
product beyond `top` have no result, or stay at the end of the words where that is asked for. A
numeral is read digit by digit in words just when its value is a word: what is read of a numeral
never exceeds the value of the whole.
-/

namespace Miaou

namespace Word

def sub? (m n : Nat) : Option Nat := if n ≤ m then some (m - n) else none

def add? (top m n : Nat) : Option Nat := if m + n ≤ top then some (m + n) else none

def mul? (top m n : Nat) : Option Nat := if m * n ≤ top then some (m * n) else none

def saturatingSub (m n : Nat) : Nat := (sub? m n).getD 0

def saturatingAdd (top m n : Nat) : Nat := (add? top m n).getD top

@[simp] theorem saturatingSub_eq (m n : Nat) : saturatingSub m n = m - n := by
  unfold saturatingSub sub?
  split
  · rfl
  · simp only [Option.getD_none]
    omega

@[simp] theorem saturatingAdd_eq (top m n : Nat) : saturatingAdd top m n = min (m + n) top := by
  unfold saturatingAdd add?
  split
  · simp only [Option.getD_some]
    omega
  · simp only [Option.getD_none]
    omega

end Word

namespace Digits

def next? (top n : Nat) (d : Char) : Option Nat := do
  let tens ← Word.mul? top 10 n
  Word.add? top tens (d.toNat - '0'.toNat)

def word? (top : Nat) (ds : List Char) : Option Nat := ds.foldlM (next? top) 0

theorem next?_eq (top n : Nat) (d : Char) :
    next? top n d =
      if 10 * n + (d.toNat - '0'.toNat) ≤ top then some (10 * n + (d.toNat - '0'.toNat))
      else none := by
  unfold next? Word.mul?
  split
  · rfl
  · rename_i large
    rw [if_neg fun fits => large (Nat.le_trans (Nat.le_add_right ..) fits)]
    rfl

theorem le_ofDigitChars (n : Nat) (ds : List Char) : n ≤ Nat.ofDigitChars 10 ds n := by
  rw [Nat.ofDigitChars_eq_ofDigitChars_zero]
  exact Nat.le_trans (Nat.le_mul_of_pos_left n (Nat.pow_pos (by decide))) (Nat.le_add_right ..)

theorem foldlM_next? {top n : Nat} (fits : n ≤ top) (ds : List Char) :
    ds.foldlM (next? top) n =
      if Nat.ofDigitChars 10 ds n ≤ top then some (Nat.ofDigitChars 10 ds n) else none := by
  induction ds generalizing n with
  | nil => exact (if_pos fits).symm
  | cons d ds ih =>
    rw [List.foldlM_cons, Nat.ofDigitChars_cons, next?_eq]
    split
    · rename_i fits
      exact ih fits
    · rename_i large
      rw [if_neg fun small => large (Nat.le_trans (le_ofDigitChars _ ds) small)]
      rfl

theorem word?_eq (top : Nat) (ds : List Char) :
    word? top ds = if value ds ≤ top then some (value ds) else none := by
  rw [value_eq]
  exact foldlM_next? (Nat.zero_le top) ds

end Digits

end Miaou
