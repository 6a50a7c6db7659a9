import Worklog.Field.Description
import Worklog.Field.Timestamp

namespace Worklog

/-- A task to be created. -/
structure TaskDraft where
  description : String
  deriving DecidableEq, Repr

/-- A change to a task; `given` tells a description that is null from one that is left out. -/
structure TaskPatch where
  description : Option String
  given : Bool
  deriving DecidableEq, Repr

/-- The bounds of a report, aware but in any order. -/
structure ReportBounds where
  start : Moment
  stop : Moment
  deriving DecidableEq

namespace TaskDraft

/-- Reads a new task from the members of an object. -/
def ofMembers (members : List (String × Json)) : Except (List Issue) TaskDraft :=
  match Json.get? "description" (.obj members) with
  | none => .error [⟨["description"], .missing⟩]
  | some v => ((Description.ofJson v).map TaskDraft.mk).mapError fun p => [⟨["description"], p⟩]

end TaskDraft

namespace TaskPatch

/-- Reads a change from the members of an object. -/
def ofMembers (members : List (String × Json)) : Except (List Issue) TaskPatch :=
  match Json.get? "description" (.obj members) with
  | none => .ok ⟨none, false⟩
  | some v => ((Description.ofJson? v).map (TaskPatch.mk · true)).mapError
      fun p => [⟨["description"], p⟩]

end TaskPatch

namespace ReportBounds

/-- Reads a bound, by its short name before its long one. -/
def bound (short long : String) (members : List (String × Json)) : Except Issue Moment :=
  match Json.get? short (.obj members), Json.get? long (.obj members) with
  | some v, _ => (Timestamp.ofJson v).mapError (Issue.mk [short])
  | none, some v => (Timestamp.ofJson v).mapError (Issue.mk [long])
  | none, none => .error ⟨[short], .missing⟩

/-- Reads the bounds from the members of an object. -/
def ofMembers (members : List (String × Json)) : Except (List Issue) ReportBounds :=
  match bound "from" "window_from" members, bound "to" "window_to" members with
  | .ok start, .ok stop => .ok ⟨start, stop⟩
  | .error a, .ok _ => .error [a]
  | .ok _, .error b => .error [b]
  | .error a, .error b => .error [a, b]

end ReportBounds

/-- Reads a value that must be an object of the named model. -/
def ofObject {α : Type} (model : String)
    (read : List (String × Json) → Except (List Issue) α) : Json → Except (List Issue) α
  | .obj members => read members
  | _ => .error [⟨[], .notObject model⟩]

def TaskDraft.ofJson (v : Json) : Except (List Issue) TaskDraft :=
  ofObject "TaskCreate" TaskDraft.ofMembers v

def TaskPatch.ofJson (v : Json) : Except (List Issue) TaskPatch :=
  ofObject "TaskUpdate" TaskPatch.ofMembers v

def ReportBounds.ofJson (v : Json) : Except (List Issue) ReportBounds :=
  ofObject "ReportRequest" ReportBounds.ofMembers v

end Worklog
