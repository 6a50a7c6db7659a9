import Worklog.Duration
import Worklog.Uuid
import Worklog.Moment.Text
import Worklog.Ident

namespace Worklog

/-- How bad a failure is. -/
inductive Severity where
  | info
  | warning
  | error
  | critical
  deriving DecidableEq, Repr

namespace Severity

/-- The name of a severity. -/
def name : Severity → String
  | info => "info"
  | warning => "warning"
  | error => "error"
  | critical => "critical"

/-- The severity with a name. -/
def ofName? (s : String) : Option Severity :=
  [info, warning, error, critical].find? (·.name = s)

end Severity

/-- What a failure is about. -/
inductive Category where
  | validation
  | notFound
  | database
  | internal
  | conflict
  deriving DecidableEq, Repr

namespace Category

/-- The name of a category. -/
def name : Category → String
  | validation => "validation"
  | notFound => "resource_not_found"
  | database => "database"
  | internal => "internal"
  | conflict => "conflict"

/-- The category with a name. -/
def ofName? (s : String) : Option Category :=
  [validation, notFound, database, internal, conflict].find? (·.name = s)

end Category

/-- For whom and where a failure arose; any part may be unknown. -/
structure Context where
  noticed : Option Moment := none
  user : Option Ident := none
  task : Option Ident := none
  operation : Option String := none
  debug : Option Json := none

/-- What is wrong with the bounds of a report. -/
inductive RangeProblem where
  | naive
  | inverted
  | other (text : String)
  deriving DecidableEq, Repr

/-- What a storage layer complains about, as far as users are told. -/
inductive StorageProblem where
  | constraint
  | connection
  | driver
  | general
  | other (text : String)
  deriving DecidableEq, Repr

/-- A stored state that the rules of the library exclude. -/
inductive Violation where
  | endsBeforeStart (id : Uuid)
  | negativeLength (id : Uuid)
  | severalOpen (count : Nat)
  | other (text : String)
  deriving DecidableEq

/-- Why an operation failed. -/
inductive Cause where
  /-- Work on the key is already running. -/
  | alreadyStarted
  /-- No work on the key is running. -/
  | notStarted
  | invalidRange (problem : RangeProblem)
  /-- There is no such resource. -/
  | notFound (kind : String) (id : String)
  /-- An operation on the database failed. -/
  | storage (operation : String) (problem : StorageProblem)
  | violation (what : Violation)
  /-- A failure described by its parts. -/
  | custom (message code : String) (category : Category) (severity : Severity) (status : Int)
  deriving DecidableEq

def RangeProblem.message : RangeProblem → String
  | naive => "from and to must include a timezone"
  | inverted => "from must not be after to"
  | other text => text

def StorageProblem.message : StorageProblem → String
  | constraint => "Integrity constraint violated"
  | connection => "Connection or operational error"
  | driver => "Database driver error"
  | general => "Database operation failed"
  | other text => text

def Violation.message : Violation → String
  | endsBeforeStart id => "Interval " ++ id.text ++ " ends before it starts"
  | negativeLength id => "Negative clipped duration for interval " ++ id.text
  | severalOpen count => Digits.text count ++ " open intervals for one key"
  | other text => text

namespace Cause

/-- The wording of a cause. -/
def message : Cause → String
  | alreadyStarted => "Task already started"
  | notStarted => "Task not started"
  | invalidRange problem => problem.message
  | notFound kind id => kind ++ " '" ++ id ++ "' not found"
  | storage operation problem => "Database " ++ operation ++ " failed: " ++ problem.message
  | violation what => what.message
  | custom message _ _ _ _ => message

/-- The code by which clients tell causes apart. -/
def code : Cause → String
  | alreadyStarted => "ALREADY_STARTED"
  | notStarted => "NOT_STARTED"
  | invalidRange _ => "INVALID_TIME_RANGE"
  | notFound _ _ => "RESOURCE_NOT_FOUND"
  | storage _ _ => "DATABASE_ERROR"
  | violation _ => "INVARIANT_VIOLATION"
  | custom _ code _ _ _ => code

def category : Cause → Category
  | alreadyStarted => .conflict
  | notStarted => .conflict
  | invalidRange _ => .validation
  | notFound _ _ => .notFound
  | storage _ _ => .database
  | violation _ => .internal
  | custom _ _ category _ _ => category

def severity : Cause → Severity
  | alreadyStarted => .info
  | notStarted => .info
  | invalidRange _ => .warning
  | notFound _ _ => .warning
  | storage _ _ => .critical
  | violation _ => .critical
  | custom _ _ _ severity _ => severity

/-- The status of the response that reports the cause. -/
def status : Cause → Int
  | alreadyStarted => 409
  | notStarted => 409
  | invalidRange _ => 422
  | notFound _ _ => 404
  | storage _ _ => 503
  | violation _ => 500
  | custom _ _ _ _ status => status

/-- The caller could have expected the cause; it is no defect of the service. -/
def isExpected (c : Cause) : Bool := c.severity == .info || c.severity == .warning

end Cause

/-- A cause with its context. Code, category, severity, status and wording follow from the cause; the context
    says for whom and in which operation it arose. -/
structure Failure where
  cause : Cause
  context : Context := {}

namespace Failure

/-- A start on a key whose work runs already. -/
def alreadyStarted (user task : Option Ident) (context : Option Context := none) : Failure :=
  ⟨.alreadyStarted, context.getD { user, task, operation := some "start" }⟩

/-- A stop on a key whose work does not run. -/
def notStarted (user task : Option Ident) (context : Option Context := none) : Failure :=
  ⟨.notStarted, context.getD { user, task, operation := some "stop" }⟩

/-- An operation that a context names, unless the name is missing or empty. -/
def namedOperation (context : Context) (operation : String) : String :=
  match context.operation with
  | none => operation
  | some named => if named = "" then operation else named

/-- A failed database operation. The context keeps an operation that it already names. -/
def storage (problem : StorageProblem) (operation : String) (context : Option Context := none) :
    Failure :=
  let context := context.getD {}
  ⟨.storage operation problem,
    { context with operation := some (namedOperation context operation) }⟩

/-- Completes the context of a storage failure with the key of the call. What the context
    already says is kept, and other failures are left alone. -/
def withKey (user task : Option Ident) (f : Failure) : Failure :=
  match f.cause with
  | .storage _ _ =>
    { f with context := { f.context with
        user := f.context.user.or user
        task := f.context.task.or task } }
  | _ => f

/-- The response body that reports a failure; `stamp` stands in for the time when none was
    noted. -/
def envelope (stamp : String) (f : Failure) : Json :=
  .obj [("error", .obj [
    ("code", .str f.cause.code),
    ("message", .str f.cause.message),
    ("category", .str f.cause.category.name),
    ("severity", .str f.cause.severity.name),
    ("timestamp", .str (f.context.noticed.elim stamp Moment.text)),
    ("context", .obj [
      ("user_id", Ident.json? f.context.user),
      ("task_id", Ident.json? f.context.task),
      ("operation", Json.ofText? f.context.operation)])])]

end Failure

/-- Anything that ends an operation early: a failure, or an error that has no code of its own. -/
inductive Fault where
  | failure (f : Failure)
  | clock (c : ClockFault)
  | tooLong (t : TooLong)
  /-- An integer outside 64 bits reached the store. -/
  | tooWide
  /-- No database has been opened. -/
  | notOpened
  /-- The caller gave up. -/
  | cancelled
  /-- An error of the surrounding program. -/
  | foreign (name message : String)

instance : Coe Failure Fault := ⟨.failure⟩

namespace Fault

/-- What the log says of a fault. -/
def message : Fault → String
  | failure f => f.cause.message
  | clock .mixed => "moments of different kinds cannot be ordered"
  | clock .naive => "a naive moment cannot be stored"
  | clock .outOfRange => "a moment outside the calendar"
  | tooLong _ => "a duration beyond its limits"
  | tooWide => "an integer outside 64 bits"
  | notOpened => "Database not initialized"
  | cancelled => ""
  | foreign _ message => message

/-- The name of a fault in the log. -/
def name : Fault → String
  | failure f => f.cause.code
  | foreign name _ => name
  | _ => "fault"

/-- Completes storage failures with the key of the call. -/
def withKey (user task : Option Ident) : Fault → Fault
  | .failure f => .failure (f.withKey user task)
  | other => other

end Fault

/-- Reads of the clock fail as faults. -/
def ofClock {α : Type} (r : Except ClockFault α) : Except Fault α := r.mapError .clock

end Worklog
