import Worklog.Body.Work
import Worklog.Http.Route
import Worklog.Session.Call
import Worklog.Store.Tasks

namespace Worklog.Http

/-- The logger of the task routes. -/
def taskLogger : String := "timetrack.api.routes.tasks"

/-- The logger of the responses that report faults. -/
def faultLogger : String := "timetrack.api.error_handlers"

/-- What stands in responses for the time of a failure. -/
def stampText : String := "<timestamp>"

namespace Response

/-- The body that shows a task. -/
def taskBody (t : Task) : Json := .obj [("id", .int t.id), ("description", .str t.description)]

/-- The service is up. -/
def healthy : Response := ofJson 200 (.obj [("status", .str "healthy"),
  ("service", .str "timetrack-api"), ("version", .str "1.0.0")])

/-- Whether the service can do its work. -/
def readiness (able : Bool) : Response :=
  if able then
    ofJson 200 (.obj [("status", .str "ready"), ("checks", .obj [("database", .str "healthy")])])
  else
    ofJson 503 (.obj [("status", .str "not_ready"), ("reason", .str "database_unavailable")])

/-- An envelope without a context. -/
def envelope (code message category severity : String) (more : List (String × Json)) : Json :=
  .obj [("error", .obj ([("code", .str code), ("message", .str message),
    ("category", .str category), ("severity", .str severity)] ++ more))]

/-- The response to any fault that is no failure. It says nothing about the fault; the log does. -/
def internal : Response :=
  ofJson 500 (envelope "INTERNAL_ERROR" "An unexpected error occurred" Category.internal.name
    Severity.critical.name [])

/-- How an issue is shown. -/
def issueBody (i : Issue) : Json :=
  .obj [("field", .str i.field), ("message", .str i.problem.message), ("type", .str i.problem.label)]

/-- The response to a request with issues. -/
def invalid (is : List Issue) : Response :=
  ofJson 400 (envelope "VALIDATION_ERROR" "Invalid request data" Category.validation.name
    Severity.error.name [("details", .arr (is.map issueBody))])

/-- The response that reports a failure. -/
def ofFailure (f : Failure) : Response := ofJson f.cause.status (f.envelope stampText)

/-- The response that reports a fault. -/
def ofFault : Fault → Response
  | .failure f => ofFailure f
  | _ => internal

end Response

/-- What the log says of a fault that ended a request. -/
def faultRecord (path : String) : Fault → Log.Record
  | .failure f =>
    let extras : Log.Extras :=
      { user := Ident.json? f.context.user, task := Ident.json? f.context.task,
        code := .str f.cause.code, operation := Json.ofText? f.context.operation,
        path := .str path }
    if f.cause.isExpected then
      Log.Level.info.record faultLogger (f.cause.code ++ ": " ++ f.cause.message) extras
    else Log.Level.error.record faultLogger ("TimetrackError: " ++ f.cause.message) extras
  | fault =>
    { Log.Level.error.record faultLogger
        ("Unhandled exception on " ++ path ++ ": " ++ fault.message) with
      trouble := some ⟨fault.name, fault.message⟩ }

/-- What the log says of a request with issues. -/
def issuesRecord (path : String) (is : List Issue) : Log.Record :=
  Log.Level.warning.record faultLogger ("Validation error on " ++ path ++ ": " ++
    String.intercalate ", " (is.map fun i => i.field ++ " " ++ i.problem.message))

/-- Whether the database answers. -/
def probe : Use Bool :=
  Run.handle
    (do
      Database.scope none (Work.read .execute fun _ => .ok ())
      return true)
    fun fault => do
      Run.change (Database.note
        (Log.Level.error.record Raised.logger ("DB health check failed: " ++ fault.message)))
      return false

/-- A record about a task. -/
def taskRecord (message : String) (id : Int) : Log.Record :=
  Log.Level.info.record taskLogger message { task := .int id }

/-- The description of a task among those that exist. -/
def descriptionIn (tasks : List Task) (id : Ident) : Option String :=
  (tasks.find? fun t => .int t.id = id).map (·.description)

/-- The rows of a report with the descriptions of their tasks. -/
def reportRows (rows : List TaskTime) : Work Json := do
  let tasks ← Tasks.descriptions (rows.map (·.task))
  return .arr (rows.map fun row => Body.reportRow row (descriptionIn tasks row.task))

namespace Call

/-- The answer to a checked request at the time `now`; `fresh` is the id of an interval it may
    begin. -/
def run (fresh : Uuid) (now : Moment) : Call → Use Response
  | health => return .healthy
  | ready => return .readiness (← probe)
  | createTask draft => do
    let t ← Database.scope none do
      let t ← Tasks.create draft.description
      Work.note (taskRecord "Task created" t.id)
      return t
    return .ofJson 201 (Response.taskBody t)
  | listTasks limit offset => do
    let tasks ← Database.scope none (Tasks.list limit offset)
    return .ofJson 200 (.arr (tasks.map Response.taskBody))
  | getTask id => do
    return .ofJson 200 (Response.taskBody (← Database.scope none (Tasks.get id)))
  | patchTask id patch => do
    let t ← Database.scope none (Tasks.describe id patch.description)
    return .ofJson 200 (Response.taskBody t)
  | deleteTask id => do
    let t ← Database.scope none do
      let t ← Tasks.delete id
      Work.note (taskRecord "Task deleted" id)
      return t
    return .ofJson 200 (Response.taskBody t)
  | start key => do
    return .ofJson 201 (Body.interval (← Session.start Database.intervals fresh now key.ref))
  | stop key => do
    return .ofJson 200 (Body.interval (← Session.stop Database.intervals now key.ref))
  | report user bounds => do
    let rows ← Report.run Database.intervals now (some (.int user)) bounds.start bounds.stop
    return .ofJson 200 (← Database.scope none (reportRows rows))

end Call
end Worklog.Http
