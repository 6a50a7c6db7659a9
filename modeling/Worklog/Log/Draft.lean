import Worklog.Log.Record
import Worklog.Log.Template

namespace Worklog.Log

/-- A record to be. -/
structure Draft where
  level : Json
  logger : Json
  template : Json
  filling : Filling
  extras : Extras := {}
  trouble : Option Trouble := none

namespace Draft

/-- Sets the part with a name; other names change nothing that a line shows. An empty error is no
    error. -/
def set (name : String) (value : Json) (d : Draft) : Draft :=
  match name with
  | "levelname" => { d with level := value }
  | "name" => { d with logger := value }
  | "msg" => { d with template := value }
  | "args" => { d with filling := .one value }
  | "exc_info" => { d with trouble := if value.isEmpty then none else d.trouble }
  | "user_id" => { d with extras := { d.extras with user := value } }
  | "task_id" => { d with extras := { d.extras with task := value } }
  | "interval_id" => { d with extras := { d.extras with interval := value } }
  | "error_code" => { d with extras := { d.extras with code := value } }
  | "operation" => { d with extras := { d.extras with operation := value } }
  | "path" => { d with extras := { d.extras with path := value } }
  | _ => d

/-- The finished record. -/
def record (d : Draft) : Except TemplateProblem Record :=
  (message (Shown.text d.template) d.filling).map fun text =>
    ⟨d.level, d.logger, text, d.extras, d.trouble⟩

end Draft
end Worklog.Log
