import Worklog.Store.Scope

namespace Worklog

/-- The failure to find a task. -/
def Failure.noTask (id : Int) : Failure := ⟨.notFound "Task" (Digits.text id), {}⟩

namespace Tasks

/-- The task with an id, which must exist. -/
def get (id : Int) : Work Task := do
  match ← Work.ask .load .findTask fun prepared => Ledger.findTask prepared id with
  | some t => return t
  | none => Work.refuse (Failure.noTask id)

/-- Loads a task again after a commit. -/
def refresh (t : Task) : Work Task := do
  return (← Work.read .load (Ledger.findTask false t.id)).getD t

/-- Creates a task. -/
def create (description : String) : Work Task := do
  let t ← Work.write .flush (Ledger.insertTask description)
  Work.commit
  refresh t

/-- A page of the tasks by id. -/
def list (limit offset : Nat) : Work (List Task) :=
  Work.ask .execute .taskPage fun prepared => Ledger.taskPage prepared limit offset

/-- Replaces the description of a task, if there is a new one. -/
def describe (id : Int) (description : Option String) : Work Task := do
  let t ← get id
  match description with
  | some text =>
    if text ≠ t.description then
      Work.write .flush fun l => (l.describeTask id text).map ((), ·)
  | none => pure ()
  Work.commit
  refresh t

/-- Removes a task and answers what it was. -/
def delete (id : Int) : Work Task := do
  let t ← get id
  Work.write .flush fun l => (l.deleteTask false (some (.int id))).map ((), ·)
  Work.commit
  return t

/-- The descriptions of the tasks with the given ids. -/
def descriptions (ids : List Ident) : Work (List Task) :=
  if ids.isEmpty then return [] else Work.read .execute (Ledger.tasksWithIds ids)

end Tasks
end Worklog
