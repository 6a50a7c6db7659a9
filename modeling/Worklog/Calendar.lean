namespace Worklog

/-- A calendar date; `Date.Valid` says which triples of numbers are dates. -/
structure Date where
  year : Nat
  month : Nat
  day : Nat
  deriving DecidableEq, Repr

namespace Date

/-- Every fourth year is a leap year, except the centuries that 400 does not divide. -/
def isLeap (year : Nat) : Bool :=
  year % 4 == 0 && (year % 100 != 0 || year % 400 == 0)

/-- The lengths of the twelve months of a year. -/
def monthLengths (leap : Bool) : List Nat :=
  [31, if leap then 29 else 28, 31, 30, 31, 30, 31, 31, 30, 31, 30, 31]

/-- The number of days in a month; none for a month that does not exist. -/
def daysIn (year month : Nat) : Nat :=
  if month = 0 then 0 else ((monthLengths (isLeap year))[month - 1]?).getD 0

/-- The triple names a day of the years 1 to 9999. -/
def Valid (d : Date) : Prop :=
  (1 ≤ d.year ∧ d.year ≤ 9999) ∧ (1 ≤ d.month ∧ d.month ≤ 12) ∧
    1 ≤ d.day ∧ d.day ≤ daysIn d.year d.month

instance (d : Date) : Decidable d.Valid :=
  inferInstanceAs (Decidable (_ ∧ _ ∧ _))

/-- Days before the first of January of a year. -/
def daysBeforeYear (year : Nat) : Nat :=
  365 * (year - 1) + (year - 1) / 4 - (year - 1) / 100 + (year - 1) / 400

/-- Days before a date. -/
def toDays (d : Date) : Nat :=
  daysBeforeYear d.year +
    ((monthLengths (isLeap d.year)).take (d.month - 1)).foldr (· + ·) 0 + (d.day - 1)

/-- The month that holds a day of the year, with the day inside it; both count from 0. -/
def splitMonths : List Nat → Nat → Nat × Nat
  | [], day => (0, day)
  | length :: later, day =>
    if day < length then (0, day)
    else ((splitMonths later (day - length)).1 + 1, (splitMonths later (day - length)).2)

/-- The year that holds a day, with the day inside it counted from 0. The count is split into
    whole cycles of 400, 100, 4 and 1 years; the last century and the last year of a cycle
    are the longer ones, so those two quotients stop at 3. -/
def splitYears (days : Nat) : Nat × Nat :=
  let inEra := days % 146097
  let century := min (inEra / 36524) 3
  let inCentury := inEra - 36524 * century
  let inOlympiad := inCentury % 1461
  let single := min (inOlympiad / 365) 3
  (400 * (days / 146097) + 100 * century + 4 * (inCentury / 1461) + single + 1,
    inOlympiad - 365 * single)

/-- The date that a day count reaches. -/
def ofDays (days : Nat) : Date :=
  let (year, dayOfYear) := splitYears days
  let (month, day) := splitMonths (monthLengths (isLeap year)) dayOfYear
  ⟨year, month + 1, day + 1⟩

end Date
end Worklog
