import Worklog.Field.Request
import Worklog.Http.Message
import Worklog.Store.Ledger

namespace Worklog.Http

/-- What a path and a method ask for. -/
inductive Route where
  | health
  | ready
  | createTask
  | listTasks
  | getTask (id : String)
  | patchTask (id : String)
  | deleteTask (id : String)
  | start (user task : String)
  | stop (user task : String)
  | report (user : String)
  deriving DecidableEq, Repr

/-- A request whose parts have been checked. -/
inductive Call where
  | health
  | ready
  | createTask (draft : TaskDraft)
  | listTasks (limit offset : Nat)
  | getTask (id : Int)
  | patchTask (id : Int) (patch : TaskPatch)
  | deleteTask (id : Int)
  | start (key : Key)
  | stop (key : Key)
  | report (user : Int) (bounds : ReportBounds)

namespace Route

/-- The routes of a path, spelled exactly, with their methods. -/
def ofExact : List String → List (String × Route)
  | ["", "api", "v1", "health", ""] => [("GET", health)]
  | ["", "api", "v1", "health", "ready"] => [("GET", ready)]
  | ["", "api", "v1", "tasks"] => [("POST", createTask), ("GET", listTasks)]
  | ["", "api", "v1", "tasks", id] =>
    if id = "" then [] else [("GET", getTask id), ("PATCH", patchTask id), ("DELETE", deleteTask id)]
  | ["", "api", "v1", "users", user, "tasks", task, "start"] =>
    if user = "" ∨ task = "" then [] else [("POST", start user task)]
  | ["", "api", "v1", "users", user, "tasks", task, "stop"] =>
    if user = "" ∨ task = "" then [] else [("POST", stop user task)]
  | ["", "api", "v1", "users", user, "report"] => if user = "" then [] else [("POST", report user)]
  | _ => []

/-- The segments without the newline that may end them. -/
def dropNewline (segments : List String) : List String :=
  match (segments.getLast?.getD "").toList.reverse with
  | '\n' :: rest => segments.dropLast ++ [String.ofList rest.reverse]
  | _ => segments

/-- The routes of a path with their methods. A newline at the end of the path belongs to its last
    segment if that can be anything, and does not count otherwise. -/
def ofSegments (segments : List String) : List (String × Route) :=
  match ofExact segments with
  | [] => ofExact (dropNewline segments)
  | routes => routes

/-- The route has a body. -/
def hasBody : Route → Bool
  | createTask | patchTask _ | report _ => true
  | _ => false

/-- The route uses the database from the start. -/
def needsDatabase : Route → Bool
  | health | ready => false
  | _ => true

/-- Reads a part of the path. -/
def part (name value : String) : Except (List Issue) Int :=
  (Integer.parse value).mapError fun p => [⟨["path", name], p⟩]

/-- An integer within bounds. -/
def bounded (least : Nat) (greatest : Option Nat) (n : Int) : Except Problem Nat :=
  if n < least then .error (.below least)
  else match greatest with
    | some high => if (high : Int) < n then .error (.above high) else .ok n.toNat
    | none => .ok n.toNat

/-- Reads a parameter of the query. -/
def parameter (name : String) (default least : Nat) (greatest : Option Nat) (t : Target) :
    Except (List Issue) Nat :=
  match t.parameter? name with
  | none => .ok default
  | some text =>
    ((Integer.parse text).bind (bounded least greatest)).mapError fun p => [⟨["query", name], p⟩]

/-- Two checks, with the issues of both. -/
def both {α β : Type} (a : Except (List Issue) α) (b : Except (List Issue) β) :
    Except (List Issue) (α × β) :=
  match a, b with
  | .ok a, .ok b => .ok (a, b)
  | .error is, .ok _ => .error is
  | .ok _, .error is => .error is
  | .error is, .error js => .error (is ++ js)

/-- Reads the two parts of a key. -/
def key (user task : String) : Except (List Issue) Key :=
  (both (part "user_id" user) (part "task_id" task)).map fun (user, task) => ⟨.int user, .int task⟩

/-- Checks the parts of a request. Issues with the path come first, then those with the query, then those with
    the body. -/
def read (t : Target) (body : Body) : Route → Except (List Issue) Call
  | health => .ok .health
  | ready => .ok .ready
  | createTask => (body.members TaskDraft.ofMembers).map .createTask
  | listTasks =>
    (both (parameter "limit" 50 1 (some 100) t) (parameter "offset" 0 0 none t)).map
      fun (limit, offset) => .listTasks limit offset
  | getTask id => (part "task_id" id).map .getTask
  | patchTask id =>
    (both (part "task_id" id) (body.members TaskPatch.ofMembers)).map
      fun (id, patch) => .patchTask id patch
  | deleteTask id => (part "task_id" id).map .deleteTask
  | start user task => (key user task).map .start
  | stop user task => (key user task).map .stop
  | report user =>
    (both (part "user_id" user) (body.members ReportBounds.ofMembers)).map
      fun (user, bounds) => .report user bounds

end Route
end Worklog.Http
