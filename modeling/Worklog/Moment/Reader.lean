import Worklog.Moment.Text

namespace Worklog

/-- Why a text is not a date. The checks are made in this order. -/
inductive DateProblem where
  | tooShort
  | yearCharacter
  | separator
  | monthCharacter
  | dayCharacter
  | monthRange
  | dayRange
  /-- The text goes on after the date. -/
  | extra
  /-- The year is 0, which the calendar does not have. -/
  | yearZero
  deriving DecidableEq, Repr

namespace Date

/-- Bytes of a text in UTF-8. -/
def byteLength (cs : List Char) : Nat := cs.foldr (fun c n => c.utf8Size + n) 0

/-- Reads the ten characters of a date; a date of year 0 is well formed. -/
def readCalendar (cs : List Char) : Except DateProblem Date :=
  if byteLength cs < 10 then .error .tooShort
  else match Digits.take? 4 cs with
    | none => .error .yearCharacter
    | some year =>
      if cs[4]? ≠ some '-' then .error .separator
      else match Digits.take? 2 (cs.drop 5) with
        | none => .error .monthCharacter
        | some month =>
          if cs[7]? ≠ some '-' then .error .separator
          else match Digits.take? 2 (cs.drop 8) with
            | none => .error .dayCharacter
            | some day =>
              if month < 1 ∨ 12 < month then .error .monthRange
              else if day < 1 ∨ daysIn year month < day then .error .dayRange
              else .ok ⟨year, month, day⟩

end Date

namespace Moment

/-- The fraction of a second in microseconds, from its digits. -/
def fraction (digits : List Char) : Nat :=
  Nat.ofDigitChars 10 ((digits ++ ['0', '0', '0', '0', '0', '0']).take 6) 0

/-- Reads the seconds that follow hours and minutes, with their fraction. -/
def readSeconds? : List Char → Option (Nat × List Char)
  | ':' :: cs =>
    match Digits.take? 2 cs, cs.drop 2 with
    | some seconds, mark :: rest =>
      if seconds ≥ 60 then none
      else if mark = '.' ∨ mark = ',' then
        let digits := rest.takeWhile Char.isDigit
        if digits.isEmpty then none
        else some (seconds * secondMicros + fraction digits, rest.dropWhile Char.isDigit)
      else some (seconds * secondMicros, mark :: rest)
    | some seconds, [] => if seconds ≥ 60 then none else some (seconds * secondMicros, [])
    | none, _ => none
  | cs => some (0, cs)

/-- Reads a time of day in microseconds. -/
def readTime? (cs : List Char) : Option (Nat × List Char) :=
  match Digits.take? 2 cs, cs[2]?, Digits.take? 2 (cs.drop 3) with
  | some hours, some ':', some minutes =>
    if hours ≥ 24 ∨ minutes ≥ 60 then none
    else (readSeconds? (cs.drop 5)).map fun (micros, rest) =>
      ((60 * hours + minutes) * minuteMicros + micros, rest)
  | _, _, _ => none

/-- Reads hours and minutes of an offset, with or without a colon, up to the end. -/
def readOffset? (west : Bool) (cs : List Char) : Option Offset :=
  let tail := cs.drop 2
  let tail := if tail.head? = some ':' then tail.drop 1 else tail
  match Digits.take? 2 cs, Digits.take? 2 tail, tail.drop 2 with
  | some hours, some minutes, [] =>
    let total := (60 * hours + minutes) * minuteMicros
    if h : hours < 24 ∧ minutes < 60 then
      have within : total < dayMicros := by simp only [total, dayMicros, minuteMicros, secondMicros]; omega
      some (if west then ⟨-(total : Int), by omega⟩ else ⟨total, by omega⟩)
    else none
  | _, _, _ => none

/-- Reads what follows the time: nothing, `Z`, or an offset. The sign may be a true minus. -/
def readZone? : List Char → Option (Option Offset)
  | [] => some none
  | ['Z'] => some (some Offset.utc)
  | ['z'] => some (some Offset.utc)
  | '+' :: cs => (readOffset? false cs).map some
  | '-' :: cs => (readOffset? true cs).map some
  | '\u2212' :: cs => (readOffset? true cs).map some
  | _ => none

/-- The moment at a time of a day of the calendar. -/
def atDate? (d : Date) (micros : Nat) (offset : Option Offset) : Option Moment :=
  if h : d.toDays * dayMicros + micros < calendarMicros then
    some ⟨d.toDays * dayMicros + micros, offset, h⟩
  else none

/-- The parts of a written moment: its date, its time of day in microseconds, and its offset. -/
structure Parts where
  date : Date
  micros : Nat
  offset : Option Offset

/-- Reads a date with a time; a date of year 0 is well formed. -/
def readFull? (cs : List Char) : Option Parts :=
  match Date.readCalendar cs, cs[10]? with
  | .ok date, some mark =>
    if mark = 'T' ∨ mark = 't' ∨ mark = '_' ∨ mark = ' ' then
      (readTime? (cs.drop 11)).bind fun (micros, rest) =>
        (readZone? rest).map fun offset => ⟨date, micros, offset⟩
    else none
  | _, _ => none

/-- Reads a moment, or a date alone, which stands for its midnight. The problem reported is the
    one of reading the text as a date. -/
def readParts (cs : List Char) : Except DateProblem Parts :=
  match readFull? cs with
  | some parts => .ok parts
  | none => do
    let date ← Date.readCalendar cs
    if cs.length = 10 then .ok ⟨date, 0, none⟩ else .error .extra

/-- The moment with the given parts. The calendar starts with year 1. -/
def Parts.place? (p : Parts) : Option Moment :=
  if p.date.year = 0 then none else atDate? p.date p.micros p.offset

/-- Reads a moment of the calendar: `YYYY-MM-DD`, then perhaps after `T`, `t`, `_` or a blank `HH:MM`, the
    seconds with a fraction that is cut to microseconds, and `Z` or an offset. -/
def read (cs : List Char) : Except DateProblem Moment := do
  match (← readParts cs).place? with
  | some m => .ok m
  | none => .error .yearZero

end Moment
end Worklog
