import Worklog.Failure

namespace Worklog

/-- The unit of exclusivity: one user at one task. -/
structure Key where
  user : Ident
  task : Ident
  deriving DecidableEq, Repr

/-- A span of time that a user spends on a task. -/
structure Interval where
  id : Uuid
  user : Ident
  task : Ident
  started : Moment
  stopped : Option Moment
  deriving DecidableEq

/-- Keys are the same when their users and their tasks are. -/
def Key.same (a b : Key) : Bool := a.user.same b.user && a.task.same b.task

namespace Interval

def key (i : Interval) : Key := ⟨i.user, i.task⟩

/-- Work goes on. -/
def isOpen (i : Interval) : Bool := i.stopped.isNone

/-- The name of the state that an interval leaves its key in. -/
def stateName (i : Interval) : String := if i.isOpen then "active" else "inactive"

/-- Equality of intervals compares times as instants. -/
def same (a b : Interval) : Bool :=
  a.id == b.id && a.user.same b.user && a.task.same b.task && a.started.same b.started &&
    match a.stopped, b.stopped with
    | none, none => true
    | some s, some t => s.same t
    | _, _ => false

/-- Where the interval ends if now is `now`. -/
def effectiveEnd (i : Interval) (now : Moment) : Moment := i.stopped.getD now

/-- The order of listings: user, task, start, closed before open, end. -/
def listedBefore (a b : Interval) : Bool :=
  if a.user ≠ b.user then a.user.atMost b.user
  else if a.task ≠ b.task then a.task.atMost b.task
  else if a.started.instant ≠ b.started.instant then a.started.instant < b.started.instant
  else match a.stopped, b.stopped with
    | some s, some t => s.instant ≤ t.instant
    | some _, none => true
    | none, some _ => false
    | none, none => true

/-- The listing of a collection of intervals. -/
def listing (is : List Interval) : List Interval := is.mergeSort listedBefore

end Interval
end Worklog
