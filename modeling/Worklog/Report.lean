import Worklog.Window

namespace Worklog

/-- The time of one task within a window, in microseconds. -/
structure TaskTime where
  task : Ident
  micros : Int
  deriving DecidableEq, Repr

namespace Report

/-- The context of a violation found while reporting. -/
def violationContext (i : Interval) (debug : Option Json) : Context :=
  { user := some i.user, task := some i.task, operation := some "report", debug }

/-- The violation of an interval that ends before it starts. -/
def endsBeforeStart (i : Interval) (ended : Moment) : Failure :=
  ⟨.violation (.endsBeforeStart i.id), violationContext i (some (.obj
    [("started_at", .str i.started.text), ("effective_end", .str ended.text)]))⟩

/-- The violation of a part that would have negative length. -/
def negativeLength (i : Interval) : Failure :=
  ⟨.violation (.negativeLength i.id), violationContext i none⟩

/-- The length of the overlap of an interval that ends at `ended` with a window it meets. -/
def overlapLength (i : Interval) (ended : Moment) (w : Window) : Except ClockFault Int := do
  let last ← ended.earliest w.stop
  let first ← i.started.latest w.start
  last.since first

/-- The length of the part of an interval inside a window; `none` when they do not meet. -/
def clip (i : Interval) (w : Window) (now : Moment) : Except Fault (Option Int) := do
  let ended := i.effectiveEnd now
  if ← ofClock (ended.before i.started) then
    .error (endsBeforeStart i ended)
  else if ← ofClock (w.overlaps i.started ended) then
    let micros ← ofClock (overlapLength i ended w)
    if micros < 0 then .error (negativeLength i) else .ok (some micros)
  else .ok none

/-- Adds time to a task; a task seen for the first time comes last. -/
def credit (task : Ident) (micros : Int) : List TaskTime → Except TooLong (List TaskTime)
  | [] => (Duration.checked micros).map fun total => [⟨task, total⟩]
  | row :: rest =>
    if row.task.same task then
      (Duration.checked (row.micros + micros)).map fun total => ⟨row.task, total⟩ :: rest
    else (credit task micros rest).map (row :: ·)

/-- Totals per task over a list of intervals, in the order in which tasks first appear. -/
def totals (w : Window) (now : Moment) : List TaskTime → List Interval → Except Fault (List TaskTime)
  | rows, [] => .ok rows
  | rows, i :: rest => do
    match ← clip i w now with
    | none => totals w now rows rest
    | some micros => totals w now (← (credit i.task micros rows).mapError .tooLong) rest

/-- Longer times come first, equal times by task. -/
def precedes (a b : TaskTime) : Bool :=
  b.micros < a.micros || (a.micros == b.micros && a.task.atMost b.task)

/-- Puts a row in its place among ordered rows. -/
def place (row : TaskTime) : List TaskTime → List TaskTime
  | [] => [row]
  | r :: rest => if precedes row r then row :: r :: rest else r :: place row rest

/-- The rows in report order. -/
def order (rows : List TaskTime) : List TaskTime := rows.foldr place []

/-- Every total has a negative that is a duration, as the order of rows requires. -/
def checkNegations : List TaskTime → Except TooLong Unit
  | [] => .ok ()
  | row :: rest => (Duration.checked (-row.micros)).bind fun _ => checkNegations rest

/-- The report over a snapshot of intervals. -/
def aggregate (is : List Interval) (w : Window) (now : Moment) : Except Fault (List TaskTime) := do
  let rows ← totals w now [] is
  (checkNegations rows).mapError Fault.tooLong
  return order rows

end Report
end Worklog
