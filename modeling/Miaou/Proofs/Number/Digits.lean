import Miaou.Number.Digits

/-!
Numerals read back as the number they were written for.
-/

namespace Miaou.Digits

theorem value_eq (ds : List Char) : value ds = Nat.ofDigitChars 10 ds 0 :=
  Nat.ofDigitChars_eq_foldl.symm

@[simp] theorem value_ofNat (n : Nat) : value (ofNat n) = n := by
  rw [value_eq, ofNat, Nat.ofDigitChars_ten_toDigits]

theorem isDigit_ofNat (n : Nat) : ∀ d ∈ ofNat n, d.isDigit = true :=
  fun _ => Nat.isDigit_of_mem_toDigits (by decide) (by decide)

theorem ofNat_ne_nil (n : Nat) : ofNat n ≠ [] := Nat.toDigits_ne_nil

end Miaou.Digits
