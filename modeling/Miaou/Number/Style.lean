import Miaou.Number.Shortest

/-!
How a floating-point number is written. The digits are the shortest that read back; a style says
which numbers are written with a plain decimal point and how the others show their exponent.
-/

namespace Miaou

structure NumberStyle where
  half : Halfway
  /-- Whether a decimal point at this place is written plainly. -/
  plain : Int → Bool
  /-- Whether a whole number keeps one zero behind its decimal point. -/
  keepsFraction : Bool
  /-- Whether an exponent that is not negative shows its sign. -/
  signsExponent : Bool

namespace NumberStyle

def zeros (n : Nat) : List Char := List.replicate n '0'

def plainText (s : NumberStyle) (d : Decimal) : List Char :=
  match d.point with
  | .negSucc n => '0' :: '.' :: (zeros (n + 1) ++ d.digits)
  | .ofNat 0 => '0' :: '.' :: d.digits
  | .ofNat p =>
    if d.digits.length ≤ p then
      d.digits ++ zeros (p - d.digits.length) ++ (if s.keepsFraction then ['.', '0'] else [])
    else d.digits.take p ++ '.' :: d.digits.drop p

def exponentText (s : NumberStyle) (d : Decimal) : List Char :=
  let mantissa :=
    match d.digits with
    | [] => []
    | [digit] => [digit]
    | digit :: more => digit :: '.' :: more
  let exponent := d.point - 1
  let sign := if s.signsExponent && 0 ≤ exponent then ['+'] else []
  mantissa ++ 'e' :: (sign ++ Digits.ofInt exponent)

def magnitude (s : NumberStyle) (rank : Nat) : List Char :=
  let d := Binary64.shortest s.half rank
  if rank = 0 || s.plain d.point then s.plainText d else s.exponentText d

def chars (s : NumberStyle) : Binary64 → List Char
  | .nan => ['N', 'a', 'N']
  | .infinite negative => (if negative then ['-'] else []) ++ ['i', 'n', 'f']
  | .finite negative rank => (if negative then ['-'] else []) ++ s.magnitude rank

def text (s : NumberStyle) (x : Binary64) : String := String.ofList (s.chars x)

/-- Literals of a script: plain from 0.0001 up to sixteen digits before the point. -/
def literal : NumberStyle where
  half := .up
  plain := fun point => -4 < point && point ≤ 16
  keepsFraction := true
  signsExponent := false

/-- Quoted words of a script: always plain, and a whole number has no decimal point. -/
def word : NumberStyle where
  half := .up
  plain := fun _ => true
  keepsFraction := false
  signsExponent := false

end NumberStyle

end Miaou
