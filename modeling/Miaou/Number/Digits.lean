/-!
Numerals in base ten, read with `value` and written with `ofNat`.
-/

namespace Miaou.Digits

def value (ds : List Char) : Nat := ds.foldl (fun n d => 10 * n + (d.toNat - '0'.toNat)) 0

def ofNat (n : Nat) : List Char := Nat.toDigits 10 n

def ofInt (n : Int) : List Char :=
  if n < 0 then '-' :: ofNat n.natAbs else ofNat n.natAbs

def text (n : Nat) : String := String.ofList (ofNat n)

end Miaou.Digits
