import Worklog.Number.Double

namespace Worklog

/-- A number `mantissa * 2 ^ exponent`. -/
structure Extended where
  mantissa : Nat
  exponent : Int
  deriving DecidableEq, Repr

namespace Extended

/-- The nearest number of 64 bits to a quotient, a tie to the even mantissa. -/
def nearest (num den : Nat) : Extended :=
  let guess : Int := (Nat.log2 num : Int) - (Nat.log2 den : Int) - 63
  let (n, d) := Double.scaled num den guess
  let exponent := if n / d < 9223372036854775808 then guess - 1 else guess
  let (n, d) := Double.scaled num den exponent
  ⟨Double.roundDiv n d, exponent⟩

/-- The product, rounded. -/
def mul (a b : Extended) : Extended :=
  let p := nearest (a.mantissa * b.mantissa) 1
  ⟨p.mantissa, p.exponent + a.exponent + b.exponent⟩

/-- Multiplies several times by the same factor. -/
def mulTimes (factor : Extended) : Nat → Extended → Extended
  | 0, r => r
  | n + 1, r => mulTimes factor n (r.mul factor)

/-- Multiplies by a power of ten: by hundredth, tenth and first powers in turn. -/
def scale (power : Int) (r : Extended) : Extended :=
  let factor := fun n : Nat =>
    if 0 ≤ power then nearest (Nat.pow 10 n) 1 else nearest 1 (Nat.pow 10 n)
  let n := power.natAbs
  mulTimes (factor 1) (n % 10) (mulTimes (factor 10) (n / 10 % 10) (mulTimes (factor 100) (n / 100) r))

/-- The number as a quotient. -/
def ratio (r : Extended) : Nat × Nat :=
  (r.mantissa * Double.raise 2 r.exponent, Double.raise 2 (-r.exponent))

/-- The largest double, which is `(2 ^ 53 - 1) * 2 ^ 971`. -/
def largest : Nat := (Double.mantissaBound - 1) * Nat.pow 2 971

/-- The nearest double; what exceeds the largest is infinite. -/
def toDouble (negative : Bool) (r : Extended) : Double :=
  let (n, d) := r.ratio
  if largest * d < n then .infinite negative else Double.ofNatRatio negative n d

/-- Moves factors of ten from the power into the number while 64 bits hold it. -/
def grow : Nat → Nat → Int → Nat × Int
  | 0, s, e => (s, e)
  | fuel + 1, s, e =>
    if 0 < e ∧ s < 1844674407370954956 then grow fuel (10 * s) (e - 1) else (s, e)

/-- Moves factors of ten from the number into a negative power. -/
def shrink : Nat → Nat → Int → Nat × Int
  | 0, s, e => (s, e)
  | fuel + 1, s, e => if e < 0 ∧ s % 10 = 0 then shrink fuel (s / 10) (e + 1) else (s, e)

/-- The double for `s * 10 ^ power`, where `s` is below 2^64. It is multiplied step by step and rounded after
    every step, so it may be one unit away from the nearest double. -/
def decimal (negative : Bool) (s : Nat) (power : Int) : Double :=
  if s = 0 then .finite negative 0 (-1074)
  else
    let (s, power) := grow 20 s power
    let (s, power) := shrink 20 s power
    if power = 0 then Double.ofNatRatio negative s 1
    else ((nearest s 1).scale power).toDouble negative

end Extended
end Worklog
