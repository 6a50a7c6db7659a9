import Worklog.Schema

namespace Worklog

/-- A change of a schema. -/
inductive Change where
  | createTable (t : Table)
  | createIndex (table : String) (i : Index)
  | dropIndex (table : String) (name : String)
  | dropTable (name : String)
  deriving DecidableEq, Repr

/-- Changes to a newer schema and back. -/
structure Revision where
  id : String
  upgrade : List Change
  downgrade : List Change

namespace Change

/-- The schema after a change. -/
def apply (s : Schema) : Change → Schema
  | createTable t => s ++ [t]
  | createIndex table i =>
    s.map fun t => if t.name = table then { t with indexes := t.indexes ++ [i] } else t
  | dropIndex table name =>
    s.map fun t =>
      if t.name = table then { t with indexes := t.indexes.filter (·.name ≠ name) } else t
  | dropTable name => s.filter (·.name ≠ name)

/-- The schema after several changes. -/
def applyAll (s : Schema) (changes : List Change) : Schema := changes.foldl apply s

end Change

namespace Revision

/-- Tasks as the revision creates them: the database can give the time of creation. -/
def tasks : Table where
  name := "tasks"
  columns := [{ name := "id", type := .integer }, { name := "description", type := .text },
    { name := "created_at", type := .time, stamped := true }]
  key := ⟨["id"], none⟩

/-- Intervals as the revision creates them, before their indexes. -/
def intervals : Table where
  name := "work_intervals"
  columns := [{ name := "id", type := .uuid }, { name := "user_id", type := .integer },
    { name := "task_id", type := .integer }, { name := "started_at", type := .time },
    { name := "stopped_at", type := .time, required := false }]
  key := ⟨["id"], none⟩
  checks := [⟨"ck_work_intervals_stop_after_start", "started_at", "stopped_at"⟩]
  references := [⟨"task_id", "tasks", "id"⟩]

/-- The revision that creates the tables of the service. What it creates is written out in full: it stays
    as it is when the declarations of the service change. -/
def initial : Revision where
  id := "001_initial"
  upgrade := [
    .createTable tasks,
    .createTable intervals,
    .createIndex "work_intervals"
      { name := "uq_work_intervals_open", columns := ["user_id", "task_id"], unique := true,
        whereEmpty := some "stopped_at" },
    .createIndex "work_intervals"
      { name := "ix_work_intervals_user_started", columns := ["user_id", "started_at"] }]
  downgrade := [
    .dropIndex "work_intervals" "ix_work_intervals_user_started",
    .dropIndex "work_intervals" "uq_work_intervals_open",
    .dropTable "work_intervals",
    .dropTable "tasks"]

/-- The schema of a database that has been brought to the newest revision. -/
def newest : Schema := Change.applyAll [] initial.upgrade

/-- The table in which a database remembers its revision. -/
def versions : Table :=
  { name := "alembic_version"
    columns := [{ name := "version_num", type := .bounded 32 }]
    key := ⟨["version_num"], some "alembic_version_pkc"⟩ }

end Revision
end Worklog
