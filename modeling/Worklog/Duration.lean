import Worklog.Moment
import Worklog.Number.Double
import Worklog.Text.Digits

namespace Worklog

/-- Largest number of whole days in a duration, and in the negative of one. -/
def maxDays : Int := 999999999

/-- A duration beyond its limits: its whole days, rounded down. -/
structure TooLong where
  days : Int
  deriving DecidableEq, Repr

/-- The wording of the problem. Days that 32 bits do not hold are not told. -/
def TooLong.message (t : TooLong) : String :=
  if -0x80000000 ≤ t.days ∧ t.days < 0x80000000 then
    "days=" ++ Digits.text t.days ++ "; must have magnitude <= " ++ Digits.text maxDays
  else "Python int too large to convert to C int"

namespace Duration

/-- Whole days of a count of microseconds, rounded down. -/
def days (micros : Int) : Int := micros / dayMicros

/-- The count of microseconds, if a duration can hold it: from -999999999 days up to just below 1000000000
    days. -/
def checked (micros : Int) : Except TooLong Int :=
  if -maxDays ≤ days micros ∧ days micros ≤ maxDays then .ok micros else .error ⟨days micros⟩

/-- The duration in seconds, to the nearest double. -/
def seconds (micros : Int) : Double := Double.ofRatio micros secondMicros

end Duration

/-- A duration as whole hours and the minutes left over. -/
structure HoursMinutes where
  hours : Int
  minutes : Int
  deriving DecidableEq, Repr

namespace HoursMinutes

/-- The hours and minutes of a duration: its seconds as a double without their fraction, divided
    down, so that minutes lie between 0 and 59 also below zero. -/
def ofMicros (micros : Int) : HoursMinutes :=
  let minutes := (Duration.seconds micros).truncate.fdiv 60
  ⟨minutes.fdiv 60, minutes.fmod 60⟩

end HoursMinutes
end Worklog
