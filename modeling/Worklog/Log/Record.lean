import Worklog.Failure
import Worklog.Text.Shown

namespace Worklog.Log

/-- How much a record matters. -/
inductive Level where
  /-- Nothing is said about it. -/
  | unset
  | debug
  | info
  | warning
  | error
  | critical
  deriving DecidableEq, Repr

def Level.name : Level → String
  | unset => "NOTSET"
  | debug => "DEBUG"
  | info => "INFO"
  | warning => "WARNING"
  | error => "ERROR"
  | critical => "CRITICAL"

/-- The rank of a level among all levels. -/
def Level.rank : Level → Nat
  | unset => 0
  | debug => 10
  | info => 20
  | warning => 30
  | error => 40
  | critical => 50

/-- The level with a name; two levels have a second one. -/
def Level.ofName? : String → Option Level
  | "NOTSET" => some unset
  | "DEBUG" => some debug
  | "INFO" => some info
  | "WARNING" | "WARN" => some warning
  | "ERROR" => some error
  | "CRITICAL" | "FATAL" => some critical
  | _ => none

/-- What a record is about; null where it is not about anything. -/
structure Extras where
  user : Json := .null
  task : Json := .null
  interval : Json := .null
  code : Json := .null
  operation : Json := .null
  path : Json := .null

/-- An error that was being handled when a record was made. -/
structure Trouble where
  kind : String
  message : String
  deriving DecidableEq, Repr

/-- The error as its kind and message, or its kind alone. -/
def Trouble.text (t : Trouble) : String :=
  if t.message = "" then t.kind else t.kind ++ ": " ++ t.message

/-- One record. The names of its level and its logger are texts unless somebody has set them to
    other values. -/
structure Record where
  level : Json
  logger : Json
  message : String
  extras : Extras := {}
  trouble : Option Trouble := none

/-- The value under which an extra appears. -/
def flat : Json → Json
  | .int n => .int n
  | .real d => .real d
  | .bool b => .bool b
  | v => .str (Shown.text v)

/-- A named extra, unless it is null. -/
def extra (name : String) : Json → List (String × Json)
  | .null => []
  | v => [(name, flat v)]

namespace Extras

/-- The extras of a line in their fixed order. -/
def members (e : Extras) : List (String × Json) :=
  extra "user_id" e.user ++ extra "task_id" e.task ++ extra "interval_id" e.interval ++
    extra "error_code" e.code ++ extra "operation" e.operation ++ extra "path" e.path

end Extras

namespace Record

/-- The members of a line between its time and its error. -/
def members (r : Record) : List (String × Json) :=
  [("level", r.level), ("logger", r.logger), ("message", .str r.message)] ++
    r.extras.members

/-- The member that tells of an error. -/
def troubleMembers (r : Record) : List (String × Json) :=
  r.trouble.toList.map fun t => ("exception", .str t.text)

/-- The record as a JSON object. -/
def toJson (stamp : String) (r : Record) : Json :=
  .obj (("timestamp", .str stamp) :: r.members ++ r.troubleMembers)

/-- The line of a record that was made at the time `stamp`. -/
def line (stamp : String) (r : Record) : String := (r.toJson stamp).text

/-- The line of a record for human readers. -/
def plainLine (stamp : String) (r : Record) : String :=
  stamp ++ " " ++ Shown.text r.level ++ " " ++ Shown.text r.logger ++ " - " ++ r.message

end Record

/-- A record of the given level without extras. -/
def Level.record (level : Level) (logger message : String) (extras : Extras := {}) : Record :=
  ⟨.str level.name, .str logger, message, extras, none⟩

/-- Extras that name the key of a call. -/
def Extras.ofKey (user task : Option Ident) : Extras :=
  { user := Ident.json? user, task := Ident.json? task }

end Worklog.Log
