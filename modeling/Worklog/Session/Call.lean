import Worklog.Report
import Worklog.Store.Intervals

namespace Worklog

namespace Session

variable {σ : Type}

/-- The logger of starts and stops. -/
def logger : String := "timetrack.services.session_controller"

/-- A record about the call of a key, and about an interval if there is one. -/
def record (key : KeyRef) (message : String) (interval : Option Interval := none) : Log.Record :=
  Log.Level.info.record logger message
    { user := Ident.json? key.user, task := Ident.json? key.task,
      interval := Json.ofText? (interval.map (·.id.text)) }

/-- Completes the storage failures of a step with the key of the call. -/
def keyed {α : Type} (key : KeyRef) (x : Run Fault σ α) : Run Fault σ α :=
  x.mapError (Fault.withKey key.user key.task)

/-- The failure of a start whose key is active already. -/
def alreadyStarted (key : KeyRef) : Fault := .failure (Failure.alreadyStarted key.user key.task)

/-- The failure of a stop whose key is not active. -/
def notStarted (key : KeyRef) : Fault := .failure (Failure.notStarted key.user key.task)

/-- Starts work on a key at the time `now`, under a fresh id. The store decides races, and the call only
    reports its answer. -/
def start (store : IntervalStore σ) (fresh : Uuid) (now : Moment) (key : KeyRef) :
    Run Fault σ Interval := do
  match ← keyed key (store.beginInterval fresh key now) with
  | .conflict _ =>
    store.note (record key "Start refused: task already started")
    Run.fail (alreadyStarted key)
  | .interval i =>
    store.note (record key "Work started" (some i))
    return i

/-- The first step of a stop: looks for the open interval of the key. -/
def find (store : IntervalStore σ) (key : KeyRef) : Run Fault σ (Option Interval) :=
  keyed key (store.openInterval key)

/-- The last step of a stop that found no open interval. -/
def refuseStop (store : IntervalStore σ) (key : KeyRef) : Run Fault σ Interval := do
  store.note (record key "Stop refused: task not started")
  Run.fail (notStarted key)

/-- The last step of a stop: closes the interval that was found, at the time `now`. Another stop
    may have closed it in the meantime. -/
def close (store : IntervalStore σ) (key : KeyRef) (found : Interval) (now : Moment) :
    Run Fault σ Interval := do
  match ← keyed key (store.closeInterval found.id now) with
  | .notFound _ =>
    store.note (record key "Stop refused: interval closed concurrently" (some found))
    Run.fail (notStarted key)
  | .interval i =>
    store.note (record key "Work stopped" (some i))
    return i

/-- What is left of a stop after its first step. -/
def finish (store : IntervalStore σ) (key : KeyRef) (found : Option Interval) (now : Moment) :
    Run Fault σ Interval :=
  match found with
  | none => refuseStop store key
  | some i => close store key i now

/-- Stops work on a key. Between its steps anything may happen. -/
def stop (store : IntervalStore σ) (now : Moment) (key : KeyRef) : Run Fault σ Interval := do
  finish store key (← find store key) now

end Session

namespace Report

variable {σ : Type}

/-- The logger of reports. -/
def logger : String := "timetrack.services.report_service"

/-- What the log says of a finished report. -/
def built (user : Option Ident) (is : List Interval) (rows : List TaskTime) : Log.Record :=
  Log.Level.debug.record logger
    ("Report built from " ++ Digits.text is.length ++ " intervals, " ++ Digits.text rows.length ++
      " tasks")
    { user := Ident.json? user, operation := .str "report" }

/-- The last step of a report: adds up what was read, as of `now`. -/
def finish (store : IntervalStore σ) (user : Option Ident) (window : Window) (is : List Interval)
    (now : Moment) : Run Fault σ (List TaskTime) := do
  let rows ← Run.ofExcept (aggregate is window now)
  store.note (built user is rows)
  return rows

/-- The time that a user spent on each task within a window, as of `now`. The bounds are checked
    before the store is read, and nothing is read for an empty window. -/
def run (store : IntervalStore σ) (now : Moment) (user : Option Ident) (start stop : Moment) :
    Run Fault σ (List TaskTime) := do
  let window ← Run.ofExcept (Window.check start stop)
  if window.isEmpty then return []
  else
    finish store user window (← store.intervalsOverlapping user window.start window.stop) now

end Report
end Worklog
