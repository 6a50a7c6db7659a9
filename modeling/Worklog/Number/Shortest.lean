import Worklog.Number.Double
import Worklog.Text.Digits

namespace Worklog.Double

/-- Doubled bounds of the values that round to a number: with unit `2 ^ (exponent - 2)` the number is
    `4 * mantissa`, the upper bound two units above. Below a power of two the gap is half as wide. -/
def roundingBounds (mantissa : Nat) (exponent : Int) : Nat × Nat :=
  if mantissa = leastFull ∧ -1074 < exponent then (4 * mantissa - 1, 4 * mantissa + 2)
  else (4 * mantissa - 2, 4 * mantissa + 2)

/-- `digits * 10 ^ power` lies among the values that round to the number. The ends belong to it
    when the mantissa is even. -/
def readsBack (mantissa : Nat) (exponent : Int) (digits : Nat) (power : Int) : Bool :=
  let (low, high) := roundingBounds mantissa exponent
  let unit := exponent - 2
  let left := digits * raise 10 power * raise 2 (-unit)
  let right := fun bound => bound * raise 10 (-power) * raise 2 unit
  if mantissa % 2 = 0 then right low ≤ left && left ≤ right high
  else right low < left && left < right high

/-- The grid point below or above that reads back, the nearer when both do and the even one on a
    tie. -/
def candidate? (mantissa : Nat) (exponent power : Int) : Option Nat :=
  let num := mantissa * raise 2 exponent * raise 10 (-power)
  let den := raise 2 (-exponent) * raise 10 power
  let below := num / den
  let above := below + 1
  match readsBack mantissa exponent below power, readsBack mantissa exponent above power with
  | true, true =>
    let twice := 2 * (num % den)
    some (if twice < den then below else if den < twice then above
      else if below % 2 = 0 then below else above)
  | true, false => some below
  | false, true => some above
  | false, false => none

/-- The least `p` with the number below `10 ^ p`, searched downwards. -/
def magnitude (mantissa : Nat) (exponent : Int) : Nat → Int → Int
  | 0, p => p
  | fuel + 1, p =>
    let q := p - 1
    if mantissa * raise 2 exponent * raise 10 (-q) < raise 2 (-exponent) * raise 10 q then
      magnitude mantissa exponent fuel q
    else p

/-- Tries ever finer grids until one has a point that reads back. -/
def searchDigits (mantissa : Nat) (exponent top : Int) : Nat → Nat → Nat × Int
  | 0, count => ((candidate? mantissa exponent (top - count)).getD 0, top - count)
  | fuel + 1, count =>
    match candidate? mantissa exponent (top - count) with
    | some digits => (digits, top - count)
    | none => searchDigits mantissa exponent top fuel (count + 1)

/-- Drops zeros from the end of a digit run. -/
def dropZeros (cs : List Char) : List Char := (cs.reverse.dropWhile (· == '0')).reverse

/-- The shortest digits of a positive number, and the place of the point after which they start:
    the value is `0.d₁d₂… * 10 ^ place`. -/
def shortest (mantissa : Nat) (exponent : Int) : List Char × Int :=
  let guess : Int := ((Nat.log2 mantissa : Int) + exponent + 1) * 30103 / 100000 + 2
  let top := magnitude mantissa exponent 6 guess
  let (digits, power) := searchDigits mantissa exponent top 17 1
  let run := Nat.toDigits 10 digits
  (dropZeros run, power + run.length)

/-- How the digits of a number are laid out. -/
structure Layout where
  /-- Least and largest exponent of ten written with a plain point. -/
  leastPlain : Int
  largestPlain : Int
  /-- Least number of digits of a written exponent. -/
  exponentDigits : Nat

/-- Exponents from -4 to 15 are written out; other numbers get an exponent of at least two
    digits with its sign. -/
def Layout.standard : Layout := ⟨-4, 15, 2⟩

/-- A positive number from its digits and the place of the point. -/
def layOut (l : Layout) (digits : List Char) (place : Int) : List Char :=
  let power := place - 1
  if l.leastPlain ≤ power ∧ power ≤ l.largestPlain then
    if place ≤ 0 then '0' :: '.' :: List.replicate (-place).toNat '0' ++ digits
    else
      let whole := digits.take place.toNat
      let part := digits.drop place.toNat
      whole ++ List.replicate (place.toNat - whole.length) '0' ++ '.' ::
        (if part.isEmpty then ['0'] else part)
  else
    let exponent := Nat.toDigits 10 power.natAbs
    digits.take 1 ++ (if digits.length ≤ 1 then [] else '.' :: digits.drop 1) ++ 'e' ::
      (if power < 0 then '-' else '+') ::
        (List.replicate (l.exponentDigits - exponent.length) '0' ++ exponent)

/-- The characters of a finite number. -/
def renderFinite (negative : Bool) (mantissa : Nat) (exponent : Int) : List Char :=
  (if negative then ['-'] else []) ++
    if mantissa = 0 then ['0', '.', '0']
    else
      let (digits, place) := shortest mantissa exponent
      layOut .standard digits place

end Worklog.Double
