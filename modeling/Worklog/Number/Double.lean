namespace Worklog

/-- A binary floating-point number of double precision. -/
inductive Double where
  | finite (negative : Bool) (mantissa : Nat) (exponent : Int)
  | infinite (negative : Bool)
  | nan
  deriving DecidableEq, Repr

namespace Double

/-- A base raised to an exponent; a negative one gives 1. -/
def raise (base : Nat) (exponent : Int) : Nat := Nat.pow base exponent.toNat

/-- Mantissas stay below this, which is 2^53. -/
def mantissaBound : Nat := 9007199254740992

/-- The least mantissa of all 53 bits, which is 2^52. -/
def leastFull : Nat := 4503599627370496

/-- The quotient rounded to the nearest integer, a tie to the even one. -/
def roundDiv (num den : Nat) : Nat :=
  let q := num / den
  let twice := 2 * (num % den)
  if twice < den then q
  else if den < twice then q + 1
  else if q % 2 = 0 then q else q + 1

/-- The quotient `num / (den * 2 ^ exponent)` as a numerator and a denominator. -/
def scaled (num den : Nat) (exponent : Int) : Nat × Nat :=
  if 0 ≤ exponent then (num, den * raise 2 exponent) else (num * raise 2 (-exponent), den)

/-- The power of two that leaves a quotient 53 bits before the point, or the smallest one. -/
def exponentFor (num den : Nat) : Int :=
  let guess : Int := (Nat.log2 num : Int) - (Nat.log2 den : Int) - 52
  let (n, d) := scaled num den guess
  max (-1074) (if n / d < leastFull then guess - 1 else guess)

/-- The nearest number to a quotient of naturals. -/
def ofNatRatio (negative : Bool) (num den : Nat) : Double :=
  if num = 0 ∨ den = 0 then .finite negative 0 (-1074)
  else
    let exponent := exponentFor num den
    let (n, d) := scaled num den exponent
    let mantissa := roundDiv n d
    let (mantissa, exponent) :=
      if mantissa = mantissaBound then (leastFull, exponent + 1) else (mantissa, exponent)
    if 971 < exponent then .infinite negative else .finite negative mantissa exponent

/-- The nearest number to a quotient. -/
def ofRatio (num : Int) (den : Nat) : Double :=
  ofNatRatio (decide (num < 0)) num.natAbs den

/-- The nearest number to `mantissa * 10 ^ exponent`. Exponents far outside the range decide the
    result at once, so that no huge power is computed. -/
def ofDecimal (negative : Bool) (mantissa : Nat) (exponent : Int) : Double :=
  if mantissa = 0 then .finite negative 0 (-1074)
  else if 400 < exponent then .infinite negative
  else if exponent + (Nat.log2 mantissa : Int) < -1200 then .finite negative 0 (-1074)
  else if 0 ≤ exponent then ofNatRatio negative (mantissa * raise 10 exponent) 1
  else ofNatRatio negative mantissa (raise 10 (-exponent))

/-- The integer part of the absolute value. -/
def wholePart (mantissa : Nat) (exponent : Int) : Nat :=
  if 0 ≤ exponent then mantissa * raise 2 exponent else mantissa / raise 2 (-exponent)

/-- What the absolute value exceeds its integer part by, as a numerator over a power of two. -/
def fractionPart (mantissa : Nat) (exponent : Int) : Nat × Nat :=
  if 0 ≤ exponent then (0, 1) else (mantissa % raise 2 (-exponent), raise 2 (-exponent))

/-- The number as a quotient; one without bound has no denominator, and what is no number is zero. -/
def ratio : Double → Int × Nat
  | .finite negative m e =>
    let n : Int := m * raise 2 e
    (if negative then -n else n, raise 2 (-e))
  | .infinite negative => (if negative then -1 else 1, 0)
  | .nan => (0, 1)

/-- The number with its fraction cut off. -/
def truncate : Double → Int
  | .finite false m e => wholePart m e
  | .finite true m e => -(wholePart m e : Int)
  | _ => 0

end Double
end Worklog
