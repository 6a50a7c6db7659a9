import Worklog.Store.Column
import Worklog.Store.Complaint

namespace Worklog

/-- The types of columns. -/
inductive ColumnType where
  | integer
  | text
  | time
  | uuid
  /-- Text of at most a number of characters. -/
  | bounded (length : Nat)
  deriving DecidableEq, Repr

/-- A column. -/
structure Column where
  name : String
  type : ColumnType
  required : Bool := true
  /-- The database fills the time of the insertion in when no value is given. -/
  stamped : Bool := false
  deriving DecidableEq, Repr

/-- A primary key, which may have a name. -/
structure PrimaryKey where
  columns : List String
  name : Option String := none
  deriving DecidableEq, Repr

/-- A check that a column is empty or not below another. -/
structure OrderCheck where
  name : String
  lower : String
  upper : String
  deriving DecidableEq, Repr

/-- A reference to the key of another table; rows go with the row they refer to. -/
structure Reference where
  column : String
  table : String
  target : String
  deriving DecidableEq, Repr

/-- An index; one with `whereEmpty` covers only rows in which that column is empty. -/
structure Index where
  name : String
  columns : List String
  unique : Bool := false
  whereEmpty : Option String := none
  deriving DecidableEq, Repr

/-- A table. -/
structure Table where
  name : String
  columns : List Column
  key : PrimaryKey
  checks : List OrderCheck := []
  references : List Reference := []
  indexes : List Index := []
  deriving DecidableEq, Repr

/-- The tables of a database. -/
abbrev Schema := List Table

namespace Schema

/-- The table of tasks. -/
def tasksName : String := "tasks"

/-- The table of intervals. -/
def intervalsName : String := "work_intervals"

/-- The columns of an interval. -/
def intervalColumns : List Column :=
  [{ name := "id", type := .uuid }, { name := "user_id", type := .integer },
    { name := "task_id", type := .integer }, { name := "started_at", type := .time },
    { name := "stopped_at", type := .time, required := false }]

/-- An interval does not end before it starts. -/
def stopAfterStart : OrderCheck := ⟨"ck_work_intervals_stop_after_start", "started_at", "stopped_at"⟩

/-- An interval belongs to a task. -/
def toTask : Reference := ⟨"task_id", tasksName, "id"⟩

/-- A key has one open interval. -/
def openIndex : Index :=
  { name := openIndexName, columns := ["user_id", "task_id"], unique := true,
    whereEmpty := some "stopped_at" }

/-- The intervals of a user by their start. -/
def startIndex : Index :=
  { name := "ix_work_intervals_user_started", columns := ["user_id", "started_at"] }

/-- Tasks as the service declares them: it gives the time of creation itself. -/
def declaredTasks : Table :=
  { name := tasksName
    columns := [{ name := "id", type := .integer }, { name := "description", type := .text },
      { name := "created_at", type := .time }]
    key := ⟨["id"], none⟩ }

/-- Intervals as the service declares them. -/
def declaredIntervals : Table :=
  { name := intervalsName
    columns := intervalColumns
    key := ⟨["id"], none⟩
    checks := [stopAfterStart]
    references := [toTask]
    indexes := [startIndex, openIndex] }

/-- The schema that the service works on. -/
def declared : Schema := [declaredTasks, declaredIntervals]

end Schema
end Worklog
