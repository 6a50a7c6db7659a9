import Worklog.Number.Shortest

namespace Worklog.Double

/-- The absolute value of a finite number as a quotient. -/
def quotient (mantissa : Nat) (exponent : Int) : Nat × Nat :=
  (mantissa * raise 2 exponent, raise 2 (-exponent))

/-- A count of digits with a point before the last `places` of them. -/
def pointed (places : Nat) (keepPoint : Bool) (n : Nat) : List Char :=
  let run := Nat.toDigits 10 n
  let run := List.replicate (places + 1 - run.length) '0' ++ run
  let whole := run.take (run.length - places)
  if places = 0 then whole ++ (if keepPoint then ['.'] else [])
  else whole ++ '.' :: run.drop (run.length - places)

/-- A quotient with a fixed number of places. -/
def fixedPlaces (places : Nat) (keepPoint : Bool) (num den : Nat) : List Char :=
  pointed places keepPoint (roundDiv (num * raise 10 places) den)

/-- The first `count + 1` digits of a positive quotient, rounded, with the exponent of ten of the
    first of them. -/
def leading (count : Nat) (mantissa : Nat) (exponent : Int) : Nat × Int :=
  if mantissa = 0 then (0, 0)
  else
    let power := (shortest mantissa exponent).2 - 1
    let (num, den) := quotient mantissa exponent
    let shift := (count : Int) - power
    let digits := roundDiv (num * raise 10 shift) (den * raise 10 (-shift))
    if raise 10 (count + 1) ≤ digits then (digits / 10, power + 1)
    else if digits < raise 10 count then
      (roundDiv (num * raise 10 (shift + 1)) (den * raise 10 (-(shift + 1))), power - 1)
    else (digits, power)

/-- The exponent of a number: sign and at least two digits. -/
def exponentText (power : Int) : List Char :=
  let run := Nat.toDigits 10 power.natAbs
  (if power < 0 then '-' else '+') :: (List.replicate (2 - run.length) '0' ++ run)

/-- A finite number in exponent form. -/
def scientific (places : Nat) (keepPoint : Bool) (mantissa : Nat) (exponent : Int) : List Char :=
  let (digits, power) := leading places mantissa exponent
  pointed places keepPoint digits ++ 'e' :: exponentText power

/-- Drops the zeros at the end of the places, and a point that nothing follows. -/
def dropPlaces (cs : List Char) : List Char :=
  if cs.contains '.' then
    let rest := cs.reverse.dropWhile (· == '0')
    (if rest.head? = some '.' then rest.drop 1 else rest).reverse
  else cs

/-- A finite number with a number of significant digits, in the shorter of the two forms. -/
def general (significant : Nat) (keepZeros : Bool) (mantissa : Nat) (exponent : Int) : List Char :=
  let significant := max 1 significant
  let (digits, power) := leading (significant - 1) mantissa exponent
  let tidy := fun cs => if keepZeros then cs else dropPlaces cs
  if power < -4 ∨ (significant : Int) ≤ power then
    tidy (pointed (significant - 1) keepZeros digits) ++ 'e' :: exponentText power
  else
    let (num, den) := quotient mantissa exponent
    tidy (fixedPlaces ((significant : Int) - 1 - power).toNat keepZeros num den)

end Worklog.Double
