import Worklog.Moment

namespace Worklog

/-- The kinds of database. -/
inductive Dialect where
  | sqlite
  | postgresql
  | other
  deriving DecidableEq, Repr

namespace Dialect

/-- The dialect with a name, compared letter by letter. -/
def ofName (s : String) : Dialect :=
  if s = "sqlite" then sqlite else if s = "postgresql" then postgresql else other

end Dialect

namespace TimeColumn

/-- The form in which an instant is stored; SQLite keeps no offsets. -/
def stored (d : Dialect) (i : Instant) : Moment :=
  if d = .sqlite then i.toReading else i.toMoment

/-- Prepares a value for a statement. Naive moments are refused, and moments that universal time carries out
    of the calendar. -/
def bind (d : Dialect) : Option Moment → Except ClockFault (Option Moment)
  | none => .ok none
  | some m => (Instant.ofMoment m).map fun i => some (stored d i)

/-- Takes a value from a result row. -/
def load : Option Moment → Except ClockFault (Option Moment)
  | none => .ok none
  | some m => m.toUtc.map some

end TimeColumn
end Worklog
