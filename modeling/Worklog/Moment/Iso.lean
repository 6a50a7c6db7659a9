import Worklog.Moment.Reader
import Worklog.Text.Quoted

namespace Worklog.Iso

/-- Why a text is not a moment. The form is checked first, then the offset, the date and the time. -/
inductive Problem where
  | form (text : String)
  | offset (micros : Int)
  | year (year : Nat)
  | month
  | day
  | hour
  | minute
  | second
  deriving DecidableEq, Repr

/-- A length of time by its days and what remains of them; parts that are zero are left out. -/
def shownLength (micros : Int) : String :=
  let rest := (micros % dayMicros).toNat
  let parts := [("days", micros / dayMicros), ("seconds", (rest / secondMicros : Nat)),
    ("microseconds", (rest % secondMicros : Nat))].filter (·.2 ≠ 0)
  "datetime.timedelta(" ++ ", ".intercalate (parts.map fun p => p.1 ++ "=" ++ Digits.text p.2) ++ ")"

/-- The wording of a problem. -/
def Problem.message : Problem → String
  | form text => "Invalid isoformat string: " ++ Quoted.quoted text
  | offset micros => "offset must be a timedelta strictly between -timedelta(hours=24) and " ++
      "timedelta(hours=24), not " ++ shownLength micros ++ "."
  | year n => "year " ++ Digits.text n ++ " is out of range"
  | month => "month must be in 1..12"
  | day => "day is out of range for month"
  | hour => "hour must be in 0..23"
  | minute => "minute must be in 0..59"
  | second => "second must be in 0..59"

/-- The first day of the week that holds the fourth of January, where the weeks of a year start.
    Day 0 of the calendar was a Monday. -/
def firstMonday (year : Nat) : Nat :=
  (Date.daysBeforeYear year + 3) / 7 * 7

/-- Years that start on a Thursday have 53 weeks, and leap years that start on a Wednesday. -/
def weeks (year : Nat) : Nat :=
  let start := Date.daysBeforeYear year % 7
  if start = 3 ∨ (start = 2 ∧ Date.isLeap year) then 53 else 52

/-- The date of a day of a week, all counted from 1. -/
def weekDate? (year week day : Nat) : Option Date :=
  if 1 ≤ year ∧ 1 ≤ week ∧ week ≤ weeks year ∧ 1 ≤ day ∧ day ≤ 7 then
    some (Date.ofDays (firstMonday year + 7 * (week - 1) + (day - 1)))
  else none

/-- How many characters of a text are its date. A hyphen after a week comes before the day unless a
    digit is where the separator of the time would be; digits right after a week come in pairs
    when they are a time. -/
def dateLength (cs : List Char) : Nat :=
  if Date.byteLength cs = 7 then 7
  else if cs[4]? = some '-' then
    if cs[5]? = some 'W' ∧ (cs[8]? ≠ some '-' ∨ (cs[10]?).any Char.isDigit) then 8 else 10
  else if cs[4]? = some 'W' then
    let digits := ((cs.drop 7).takeWhile Char.isDigit).length
    if digits < 2 then 7 + digits else if digits % 2 = 1 then 7 else 8
  else 8

/-- Reads the day of a week, the first unless another is given. -/
def weekDay? (hyphens : Bool) : List Char → Option Nat
  | [] => some 1
  | '-' :: cs => if hyphens ∧ cs.length = 1 then Digits.take? 1 cs else none
  | cs => if ¬hyphens ∧ cs.length = 1 then Digits.take? 1 cs else none

/-- Reads a date. Days of weeks are found in the calendar; other dates may not be in it. -/
def date? (cs : List Char) : Option Date := do
  let year ← Digits.take? 4 cs
  let hyphens := cs[4]? = some '-'
  let rest := if hyphens then cs.drop 5 else cs.drop 4
  match rest with
  | 'W' :: rest => weekDate? year (← Digits.take? 2 rest) (← weekDay? hyphens (rest.drop 2))
  | _ =>
    let month ← Digits.take? 2 rest
    let last := rest.drop 2
    if hyphens ∧ last.head? ≠ some '-' then none
    else
      let last := if hyphens then last.drop 1 else last
      if last.length = 2 then return ⟨year, month, ← Digits.take? 2 last⟩ else none

/-- The character that ends a text early. -/
def nul : Char := Char.ofNat 0

/-- Fields of a time with a fraction of the last. -/
structure Clock where
  fields : List Nat
  micros : Nat

namespace Clock

def hours (c : Clock) : Nat := c.fields.getD 0 0

def minutes (c : Clock) : Nat := c.fields.getD 1 0

def seconds (c : Clock) : Nat := c.fields.getD 2 0

/-- Whole seconds of the fields. -/
def length (c : Clock) : Nat := 3600 * c.hours + 60 * c.minutes + c.seconds

end Clock

/-- Reads a fraction, cut to microseconds, and says whether anything but digits follows. -/
def fraction? (cs : List Char) : Option (Nat × Bool) :=
  if (cs.take 6).all Char.isDigit then
    some (Moment.fraction (cs.take 6), ((cs.drop 6).dropWhile Char.isDigit).headD nul ≠ nul)
  else none

/-- Reads fields of two digits and their fraction, and says whether something is left. What follows
    the first field decides whether there are colons. One plain character after a field, where nothing
    follows it, is left over; after the third field a fraction needs no point. -/
def fields? : Nat → Option Bool → List Char → Option (Clock × Bool)
  | 0, _, cs => (fraction? cs).map fun (micros, more) => (⟨[], micros⟩, more)
  | left + 1, colons, cs => do
    let field ← Digits.take? 2 cs
    let (later, more) ← match cs.drop 2 with
      | [] => some (⟨[], 0⟩, false)
      | c :: rest =>
        let colons := colons.getD (c = ':')
        if rest.isEmpty ∧ c.utf8Size = 1 then some (⟨[], 0⟩, decide (c ≠ nul))
        else if colons ∧ c = ':' then fields? left (some colons) rest
        else if c = '.' ∨ c = ',' then
          (fraction? rest).map fun (micros, more) => (⟨[], micros⟩, more)
        else if colons then none
        else fields? left (some colons) (c :: rest)
    some (⟨field :: later.fields, later.micros⟩, more)

/-- The microseconds of an offset. Less than a second east or west is no offset. -/
def offsetMicros (west : Bool) (c : Clock) : Int :=
  if c.length = 0 then 0
  else
    let micros : Int := c.length * secondMicros + c.micros
    if west then -micros else micros

/-- Reads a time with its offset in microseconds. What is left over between a time and its offset
    is skipped. -/
def time? (cs : List Char) : Option (Clock × Option Int) :=
  let front := cs.takeWhile fun c => c ≠ '+' ∧ c ≠ '-' ∧ c ≠ 'Z'
  (fields? 3 none front).bind fun (clock, more) =>
    match cs.drop front.length with
    | [] => if more then none else some (clock, none)
    | 'Z' :: rest => if rest.headD nul = nul then some (clock, some 0) else none
    | sign :: rest => (fields? 3 none rest).bind fun (away, more) =>
      if more then none else some (clock, some (offsetMicros (sign = '-') away))

/-- The parts that a text names, whether or not they are in the calendar. -/
structure Parts where
  date : Date
  clock : Clock
  offset : Option Int

/-- Reads a date, and the time after one separator. -/
def parts? (cs : List Char) : Option Parts := do
  if cs.length < 7 then none
  else
    let date ← date? (cs.take (dateLength cs))
    match cs.drop (dateLength cs) with
    | [] => some ⟨date, ⟨[], 0⟩, none⟩
    | _ :: rest => (time? rest).map fun (clock, offset) => ⟨date, clock, offset⟩

/-- The offset of a number of microseconds. -/
def offset (micros : Int) : Except Problem Offset :=
  if h : -(dayMicros : Int) < micros ∧ micros < dayMicros then .ok ⟨micros, h⟩
  else .error (.offset micros)

/-- What is wrong with a date or a time of the day. -/
def wrong? (d : Date) (c : Clock) : Option Problem :=
  if d.year < 1 ∨ 9999 < d.year then some (.year d.year)
  else if d.month < 1 ∨ 12 < d.month then some .month
  else if d.day < 1 ∨ Date.daysIn d.year d.month < d.day then some .day
  else if 23 < c.hours then some .hour
  else if 59 < c.minutes then some .minute
  else if 59 < c.seconds then some .second
  else none

/-- Reads a moment of ISO 8601. A date is `YYYY-MM-DD`, `YYYYMMDD`, or a day of a numbered week, `YYYY-Www-D`
    or `YYYYWwwD`, where the day may be left out. One character of any kind may follow, then a time with
    colons or without, the last part of which has a fraction, and an offset, `Z` or written like a time. -/
def read (text : String) : Except Problem Moment := do
  match parts? text.toList with
  | none => .error (.form text)
  | some p =>
    let offset ← p.offset.mapM offset
    match wrong? p.date p.clock,
        Moment.atDate? p.date (p.clock.length * secondMicros + p.clock.micros) offset with
    | none, some m => .ok m
    | some problem, _ => .error problem
    | none, none => .error (.form text)

end Worklog.Iso
