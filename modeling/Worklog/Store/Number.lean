import Worklog.Field.Integer
import Worklog.Number.Extended
import Worklog.Text.Blank

namespace Worklog

/-- A stored number. -/
inductive StoredNumber where
  | int (n : Int)
  | real (d : Double)
  deriving DecidableEq, Repr

namespace StoredNumber

/-- Blanks that may stand around a numeral. -/
def isGap (c : Char) : Bool := c == ' ' || (9 ≤ c.toNat && c.toNat ≤ 13)

/-- From this number on, further digits do not count. -/
def fullNumber : Nat := 1844674407370955160

/-- Reads digits before the point into a number; the second part counts those that are left out. -/
def wholeDigits (s : Nat) : List Char → Nat × Nat
  | [] => (s, 0)
  | c :: rest =>
    let s := 10 * s + (c.toNat - 48)
    if fullNumber ≤ s then (s, rest.length) else wholeDigits s rest

/-- Reads digits behind the point into a number; the second part counts those that are read. -/
def partDigits (s : Nat) : List Char → Nat × Nat
  | [] => (s, 0)
  | c :: rest =>
    if fullNumber ≤ s then (s, 0)
    else
      let (s, n) := partDigits (10 * s + (c.toNat - 48)) rest
      (s, n + 1)

/-- Reads the digits of an exponent, which stops growing beyond all numbers. -/
def exponentDigits (cs : List Char) : Nat :=
  cs.foldl (fun e c => if e < 10000 then 10 * e + (c.toNat - 48) else 10000) 0

/-- Reads an exponent; no text is none. -/
def exponent? : List Char → Option Int
  | [] => some 0
  | e :: more =>
    let (minus, run) := Digits.splitSign more
    if (e = 'e' ∨ e = 'E') ∧ ¬run.isEmpty ∧ run.all Char.isDigit then
      let n : Int := exponentDigits run
      some (if minus then -n else n)
    else none

/-- A real number as a column of numbers keeps it: an integer when it is one strictly between the
    ends of 64 bits. -/
def ofDouble (d : Double) : StoredNumber :=
  match d with
  | .finite _ m e =>
    let n := d.truncate
    if (Double.fractionPart m e).1 = 0 ∧ -9223372036854775808 < n ∧ n < 9223372036854775807 then .int n
    else .real d
  | _ => .real d

/-- The number that a text looks like: digits with a sign, a point and an exponent. -/
def ofText? (s : String) : Option StoredNumber :=
  let (negative, cs) := Digits.splitSign (Blank.trim isGap s.toList)
  let whole := cs.takeWhile Char.isDigit
  let rest := cs.dropWhile Char.isDigit
  let (part, rest) := match rest with
    | '.' :: more => (more.takeWhile Char.isDigit, more.dropWhile Char.isDigit)
    | _ => ([], rest)
  let exact : Int := Nat.ofDigitChars 10 whole 0
  let exact := if negative then -exact else exact
  if whole.isEmpty ∧ part.isEmpty then none
  else if cs.length = whole.length ∧ Integer.fits64 exact then some (.int exact)
  else (exponent? rest).map fun e =>
    let (s, dropped) := wholeDigits 0 whole
    let (s, read) := partDigits s part
    ofDouble (Extended.decimal negative s (e + dropped - read))

end StoredNumber
end Worklog
