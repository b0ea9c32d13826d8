/-!
Binary floating-point numbers of 64 bits, as exact values. The nonnegative finite numbers are
ordered, so each is known by its rank: zero has rank 0 and every next rank is the next larger
number. All of them are multiples of one quantum, two to the power -1074, and `ofRatio` rounds a
quotient to the nearest of them, a half going to the even rank.
-/

namespace Miaou

inductive Binary64 where
  | nan
  | infinite (negative : Bool)
  | finite (negative : Bool) (rank : Nat)
  deriving DecidableEq, Repr

namespace Binary64

def octave : Nat := 1 <<< 52

def rankLimit : Nat := 2047 * octave

/-- The value of a rank in quanta. -/
def quanta (rank : Nat) : Nat :=
  if rank < octave then rank else (octave + rank % octave) <<< (rank / octave - 1)

def roundHalfEven (num den : Nat) : Nat :=
  let whole := num / den
  let twice := 2 * (num % den)
  if twice < den then whole
  else if den < twice then whole + 1
  else whole + whole % 2

/-- The rank nearest to a quotient, as if ranks went on without end. -/
def nearestRank (num den : Nat) : Nat :=
  let scaled := num <<< 1074
  let shift := (scaled / den).log2 - 52
  shift * octave + roundHalfEven scaled (den <<< shift)

def ofRatio (negative : Bool) (num den : Nat) : Binary64 :=
  let rank := nearestRank num den
  if rank < rankLimit then .finite negative rank else .infinite negative

def tenTo (e : Nat) : Nat := Nat.pow 10 e

/-- The number nearest to `coefficient` times ten to the power `exponent`. -/
def ofDecimal (negative : Bool) (coefficient : Nat) : (exponent : Int) → Binary64
  | .ofNat e => ofRatio negative (coefficient * tenTo e) 1
  | .negSucc e => ofRatio negative coefficient (tenTo (e + 1))

end Binary64

end Miaou
