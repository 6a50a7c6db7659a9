import Worklog.Field.Integer
import Worklog.Report

namespace Worklog.Body

/-- The members that show an interval. -/
def intervalObject (id : Uuid) (user task : Ident) (started : Moment) (stopped : Option Moment) :
    Json :=
  .obj [
    ("id", .str id.text),
    ("user_id", user.json),
    ("task_id", task.json),
    ("started_at", .str started.bodyText),
    ("stopped_at", Json.ofText? (stopped.map Moment.bodyText)),
    ("state", .str (Interval.mk id user task started stopped).stateName),
    ("active", .bool stopped.isNone)]

/-- The body of a response that shows an interval. -/
def interval (i : Interval) : Json := intervalObject i.id i.user i.task i.started i.stopped

/-- The body for an interval whose ids are still to be checked, as integers of any spelling. -/
def intervalChecked (id : Uuid) (user task : Json) (started : Moment) (stopped : Option Moment) :
    Except (List Issue) Json :=
  match Integer.ofJson user, Integer.ofJson task with
  | .ok user, .ok task => .ok (intervalObject id user task started stopped)
  | user, task => .error (issuesAt ["user_id"] user ++ issuesAt ["task_id"] task)

/-- Hours and minutes of a duration. -/
def hoursMinutes (d : HoursMinutes) : Json :=
  .obj [("hours", .int d.hours), ("minutes", .int d.minutes)]

/-- A row of a report, with the description of its task when the task still exists. -/
def reportRow (row : TaskTime) (description : Option String) : Json :=
  .obj [
    ("task", .obj [("id", row.task.json), ("description", Json.ofText? description)]),
    ("duration_seconds", .real (Duration.seconds row.micros)),
    ("duration", hoursMinutes (HoursMinutes.ofMicros row.micros))]

end Worklog.Body
