import Miaou.Number.Binary64
import Miaou.Number.Digits

/-!
The shortest decimals of a binary floating-point number: the fewest digits that read back as the
same number and, of the decimals with that many digits, the nearest one. A quantum is a whole
number of units of ten to the power -1074, so every finite number has an exact expansion, whose
leading digits are cut down or up.
-/

namespace Miaou

inductive Halfway where
  | up
  | even
  deriving DecidableEq, Repr

/-- Digits behind a decimal point that has been moved: `0.d₁d₂…` times ten to the power `point`. -/
structure Decimal where
  digits : List Char
  point : Int
  deriving DecidableEq, Repr

namespace Binary64

/-- The value of a rank in units of ten to the power -1074. -/
def expansion (rank : Nat) : Nat := quanta rank * Nat.pow 5 1074

def readsBack (rank coefficient dropped : Nat) : Bool :=
  ofDecimal false coefficient ((dropped : Int) - 1074) = .finite false rank

/-- The decimal with `kept` leading digits of the expansion that reads back, if there is one. -/
def rounded? (half : Halfway) (rank size kept : Nat) : Option Nat :=
  let dropped := size - kept
  let unit := tenTo dropped
  let low := expansion rank / unit
  let twice := 2 * (expansion rank % unit)
  let lowReads := readsBack rank low dropped
  let highReads := readsBack rank (low + 1) dropped
  let lowNearer :=
    if twice = unit then half = .even && low % 2 = 0 else decide (twice < unit)
  if lowReads && (lowNearer || !highReads) then some low
  else if highReads then some (low + 1)
  else none

def dropZeros (digits : List Char) : List Char := (digits.reverse.dropWhile (· = '0')).reverse

def shortest (half : Halfway) (rank : Nat) : Decimal :=
  if rank = 0 then ⟨['0'], 1⟩
  else
    let exact := Digits.ofNat (expansion rank)
    let size := exact.length
    match (List.range 17).findSome? fun n =>
        (rounded? half rank size (n + 1)).map fun coefficient => (n + 1, coefficient) with
    | some (kept, coefficient) =>
      let digits := Digits.ofNat coefficient
      ⟨dropZeros digits, (digits.length : Int) + ((size - kept : Nat) : Int) - 1074⟩
    | none => ⟨dropZeros exact, (size : Int) - 1074⟩

end Binary64

end Miaou
