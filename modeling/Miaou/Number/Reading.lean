import Miaou.Number.Binary64
import Miaou.Number.Digits

/-!
Reading a floating-point number from its written form: an optional sign, digits with an optional
decimal point, an optional exponent, or one of the words `inf` and `NaN`.
-/

namespace Miaou.Binary64

def splitAtFirst (mark : Char) (cs : List Char) : List Char × Option (List Char) :=
  match cs.dropWhile (· ≠ mark) with
  | [] => (cs, none)
  | _ :: rest => (cs.takeWhile (· ≠ mark), some rest)

def readExponent? : List Char → Option Int
  | '-' :: ds => if ds ≠ [] && ds.all Char.isDigit then some (-(Digits.value ds : Int)) else none
  | '+' :: ds => if ds ≠ [] && ds.all Char.isDigit then some (Digits.value ds : Int) else none
  | ds => if ds ≠ [] && ds.all Char.isDigit then some (Digits.value ds : Int) else none

def readMagnitude? (negative : Bool) (cs : List Char) : Option Binary64 := do
  let (mantissa, power) := splitAtFirst 'e' cs
  let exponent ← match power with
    | none => some 0
    | some ds => readExponent? ds
  let (whole, fraction) := splitAtFirst '.' mantissa
  let ds := whole ++ fraction.getD []
  if ds ≠ [] && ds.all Char.isDigit then
    some (ofDecimal negative (Digits.value ds) (exponent - ((fraction.getD []).length : Int)))
  else none

def ofText? (text : String) : Option Binary64 :=
  match text.toList with
  | ['N', 'a', 'N'] => some .nan
  | ['i', 'n', 'f'] => some (.infinite false)
  | ['-', 'i', 'n', 'f'] => some (.infinite true)
  | '-' :: cs => readMagnitude? true cs
  | cs => readMagnitude? false cs

end Miaou.Binary64
