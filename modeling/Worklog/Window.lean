import Worklog.Interval

namespace Worklog

/-- A half-open range of time; it may be inverted unless it comes from `Window.check`. -/
structure Window where
  start : Moment
  stop : Moment
  deriving DecidableEq

namespace Window

/-- No time lies in the window because its bounds coincide. -/
def isEmpty (w : Window) : Bool := w.start.same w.stop

/-- A span meets the window: it starts before the window stops and ends after it starts. The end
    is looked at only when the start allows. -/
def overlaps (w : Window) (started ended : Moment) : Except ClockFault Bool := do
  if ← started.before w.stop then w.start.before ended else return false

/-- The window between two bounds, which must be aware and in order. -/
def check (start stop : Moment) : Except Fault Window :=
  if start.isAware && stop.isAware then
    if stop.instant < start.instant then
      .error (Failure.mk (.invalidRange .inverted) {})
    else .ok ⟨start, stop⟩
  else .error (Failure.mk (.invalidRange .naive) {})

end Window
end Worklog
