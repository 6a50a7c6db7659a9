import Worklog.Moment
import Worklog.Text.Digits

namespace Worklog

/-- How universal time is marked: as the offset `+00:00` or by the letter `Z`. -/
inductive UtcMark where
  | offset
  | letter
  deriving DecidableEq, Repr

/-- Hours and minutes of a length of time. -/
def renderMinutes (micros : Nat) : List Char :=
  let minutes := micros / minuteMicros
  Digits.fixed 2 (minutes / 60) ++ ':' :: Digits.fixed 2 (minutes % 60)

/-- The seconds after the last minute, with a fraction only when it is not zero. -/
def renderSeconds (micros : Nat) : List Char :=
  ':' :: Digits.fixed 2 (micros / secondMicros % 60) ++
    (if micros % secondMicros = 0 then [] else '.' :: Digits.fixed 6 (micros % secondMicros))

namespace Offset

/-- Whole seconds of the offset, to the nearest. -/
def seconds (o : Offset) : Nat := (o.micros.natAbs + secondMicros / 2) / secondMicros

/-- The offset as sign, hours and minutes, and the seconds when there are any. Where universal time
    is marked by a letter, offsets go to whole seconds and only their minutes are written. -/
def render (mark : UtcMark) (o : Offset) : List Char :=
  let sign := if o.micros < 0 then '-' else '+'
  match mark with
  | .letter =>
    if o.seconds = 0 then ['Z'] else sign :: renderMinutes (o.seconds * secondMicros)
  | .offset =>
    sign :: renderMinutes o.micros.natAbs ++
      (if o.micros.natAbs % minuteMicros = 0 then [] else renderSeconds o.micros.natAbs)

end Offset

namespace Moment

/-- The time of day. -/
def renderTime (micros : Nat) : List Char := renderMinutes micros ++ renderSeconds micros

/-- The calendar date. -/
def renderDate (d : Date) : List Char :=
  Digits.fixed 4 d.year ++ '-' :: Digits.fixed 2 d.month ++ '-' :: Digits.fixed 2 d.day

/-- The characters of a moment, as in `2024-01-01T10:00:00.000001+01:00`. -/
def render (mark : UtcMark) (m : Moment) : List Char :=
  renderDate (Date.ofDays (m.wall / dayMicros)) ++ 'T' :: renderTime (m.wall % dayMicros) ++
    match m.offset with
    | some o => o.render mark
    | none => []

/-- The text of a moment, universal time as an offset. -/
def text (m : Moment) : String := String.ofList (m.render .offset)

/-- The text of a moment in response bodies, universal time as `Z`. -/
def bodyText (m : Moment) : String := String.ofList (m.render .letter)

end Moment
end Worklog
