import Worklog.Field.Integer
import Worklog.Moment.Reader

namespace Worklog.Timestamp

/-- The greatest count that is taken as seconds. -/
def secondsLimit : Nat := 20000000000

/-- Seconds from the start of year 1 to the start of 1970, and from the start of year 0. -/
def epochSeconds : Int := 62135596800

def epochFromYearZero : Int := 62167219200

/-- The last second of the calendar in Unix time. -/
def lastSecond : Int := 253402300799

/-- The moment at a count of microseconds of Unix time. -/
def ofUnix (micros : Int) : Except TimeProblem Moment :=
  let seconds := micros.fdiv secondMicros
  if seconds < -epochFromYearZero then .error .tooEarly
  else if lastSecond < seconds then .error .tooLate
  else
    match Instant.ofMicros (micros + epochSeconds * secondMicros) with
    | .ok i => .ok i.toMoment
    | .error _ => .error .yearZero

/-- Microseconds in one step of a count: up to the limit it counts seconds, and milliseconds beyond. -/
def stepMicros (inSeconds : Bool) : Nat := if inSeconds then secondMicros else 1000

/-- The moment at a whole count. -/
def ofCount (count : Int) : Except TimeProblem Moment :=
  ofUnix (count * stepMicros (count.natAbs ≤ secondsLimit))

/-- The nearest count to a double, a half away from zero. -/
def roundAway : Double → Nat
  | .finite _ m e =>
    let (num, den) := Double.fractionPart m e
    Double.wholePart m e + (if den ≤ 2 * num then 1 else 0)
  | _ => 0

/-- The double is not greater than the limit, its sign aside. -/
def withinLimit (m : Nat) (e : Int) : Bool :=
  Double.wholePart m e < secondsLimit ||
    (Double.wholePart m e == secondsLimit && (Double.fractionPart m e).1 == 0)

/-- The product of a positive double and a whole number. -/
def times (d : Double) (factor : Nat) : Double :=
  match d with
  | .finite negative m e =>
    Double.ofNatRatio negative (m * Double.raise 2 e * factor) (Double.raise 2 (-e))
  | d => d

/-- The moment at a double: its floor as a count, and what it exceeds that by. -/
def ofDouble : Double → Except TimeProblem Moment
  | .nan => .error .notANumber
  | .infinite negative => .error (if negative then .tooEarly else .tooLate)
  | .finite negative m e =>
    let whole : Int := Double.wholePart m e
    let (num, den) := Double.fractionPart m e
    let (floor, excess) : Int × Nat :=
      if negative ∧ num ≠ 0 then (-whole - 1, den - num)
      else (if negative then -whole else whole, num)
    let step := stepMicros (withinLimit m e)
    ofUnix (floor * step + roundAway (times (Double.ofNatRatio false excess den) step))

/-- The moment at an integer. One that no double comes near is not taken for a number. -/
def ofInt (n : Int) : Except TimeProblem Moment :=
  if Integer.fits64 n then ofCount n
  else match Double.ofRatio n 1 with
    | .infinite _ => .error .type
    | d => ofDouble d

/-- Reads digits with a point among or around them, then perhaps an exponent. -/
def readDecimal? (negative : Bool) (cs : List Char) : Option Double :=
  let whole := cs.takeWhile Char.isDigit
  match cs.dropWhile Char.isDigit with
  | '.' :: rest =>
    let part := rest.takeWhile Char.isDigit
    let power? : Option Int := match rest.dropWhile Char.isDigit with
      | [] => some 0
      | mark :: exponent =>
        let (down, run) := Digits.splitSign exponent
        if (mark = 'e' ∨ mark = 'E') ∧ ¬run.isEmpty ∧ run.all Char.isDigit then
          let n : Int := Nat.ofDigitChars 10 run 0
          some (if down then -n else n)
        else none
    if whole.isEmpty ∧ part.isEmpty then none
    else power?.map fun power =>
      Double.ofDecimal negative (Nat.ofDigitChars 10 (whole ++ part) 0) (power - part.length)
  | _ => none

/-- The moment that a wholly numeric text denotes, when it is one. -/
def ofNumericText? (cs : List Char) : Option (Except TimeProblem Moment) :=
  let (negative, digits) := Digits.splitSign cs
  if digits.contains '.' then (readDecimal? negative digits).map ofDouble
  else if digits.isEmpty ∨ ¬digits.all Char.isDigit then none
  else
    let n : Int := Nat.ofDigitChars 10 digits 0
    let value := if negative then -n else n
    if Integer.fits64 value then some (ofCount value) else none

/-- The moment of a text that is no number, which must carry an offset. -/
def ofParts (p : Moment.Parts) : Except TimeProblem Moment :=
  if p.offset.isNone then .error .naive
  else match p.place? with
    | some m => .ok m
    | none => .error .yearZero

/-- Reads the text of a time. A whole count out of range is reported as such, one with a point as no
    date. -/
def ofText (cs : List Char) : Except TimeProblem Moment :=
  let asDate := ((Moment.readParts cs).mapError TimeProblem.date).bind ofParts
  match Moment.readFull? cs, ofNumericText? cs with
  | none, some (.ok m) => .ok m
  | none, some (.error .yearZero) => .error .yearZero
  | none, some (.error problem) =>
    if cs.contains '.' then asDate else .error (.numericText (problem = .tooLate))
  | _, _ => asDate

/-- Reads a time. -/
def ofJson : Json → Except Problem Moment
  | .str s => (ofText s.toList).mapError .time
  | .int n => (ofInt n).mapError .time
  | .real d => (ofDouble d).mapError .time
  | .broken => .error .brokenString
  | _ => .error (.time .type)

end Worklog.Timestamp
