import Worklog.Field.Integer
import Worklog.Interval
import Worklog.Store.Rejection

namespace Worklog

/-- A task as it is stored. -/
structure Task where
  id : Int
  description : String
  deriving DecidableEq, Repr

/-- An interval as it is stored. Its id is kept as it is: the column would keep an id whose 32 digits read as
    a number as that number, and ids are taken not to be of this kind. -/
structure Row where
  id : Uuid
  user : Ident
  task : Ident
  started : Instant
  stopped : Option Instant
  deriving DecidableEq

/-- A key as callers name it; one with a part missing is the key of no interval. -/
structure KeyRef where
  user : Option Ident
  task : Option Ident
  deriving DecidableEq, Repr

/-- The reference to a key. -/
def Key.ref (k : Key) : KeyRef := ⟨some k.user, some k.task⟩

/-- The stored tasks and intervals. A table that has been dropped is `none`. -/
structure Ledger where
  /-- The tasks, in the order in which they were stored. -/
  tasks : Option (List Task) := some []
  /-- The intervals, in the order in which they were stored. -/
  rows : Option (List Row) := some []
  /-- The index of open intervals exists. -/
  openUnique : Bool := true
  /-- References from intervals to tasks are enforced. -/
  foreignKeys : Bool := false
  deriving DecidableEq

namespace Row

def key (r : Row) : Key := ⟨r.user, r.task⟩

def isOpen (r : Row) : Bool := r.stopped.isNone

/-- The interval that a row stores; its times are universal. -/
def interval (r : Row) : Interval :=
  ⟨r.id, r.user, r.task, r.started.toMoment, r.stopped.map Instant.toMoment⟩

/-- The row belongs to a user; a missing user has no rows. -/
def ofUser (user : Option Ident) (r : Row) : Bool := user == some r.user

/-- The row is the open interval of a key. -/
def isOpenFor (key : KeyRef) (r : Row) : Bool := r.key.ref == key && r.isOpen

/-- The row starts before a window stops and is open or ends after it starts. -/
def reaches (start stop : Instant) (r : Row) : Bool :=
  decide (r.started.micros < stop.micros) &&
    r.stopped.all fun ended => decide (start.micros < ended.micros)

/-- A row does not end before it starts. -/
def inOrder (r : Row) : Bool :=
  r.stopped.all fun ended => decide (r.started.micros ≤ ended.micros)

/-- The row with an end. -/
def stoppedAt (ended : Instant) (r : Row) : Row := { r with stopped := some ended }

/-- The row is open and has an id. -/
def isOpenWith (id : Uuid) (r : Row) : Bool := decide (r.id = id) && r.isOpen

end Row

namespace Ledger

/-- An instant for a statement. -/
def bindTime (m : Moment) : Except Rejection Instant := (Instant.ofMoment m).mapError .time

/-- An instant for a statement, if there is a time at all. -/
def bindTime? : Option Moment → Except Rejection (Option Instant)
  | none => .ok none
  | some m => (bindTime m).map some

/-- An integer for a statement. -/
def bindInt (n : Int) : Except Rejection Unit :=
  if Integer.fits64 n then .ok () else .error .tooWide

/-- An identifier for a statement, as it is stored. -/
def bindIdent : Option Ident → Except Rejection (Option Ident)
  | none => .ok none
  | some (.int n) => (bindInt n).map fun _ => some (.int n)
  | some i => .ok i.stored

/-- A key for a statement, as it is stored. -/
def bindKey (key : KeyRef) : Except Rejection KeyRef := do
  return ⟨← bindIdent key.user, ← bindIdent key.task⟩

/-- Looks a statement's tables up and takes its values over. A statement that the database has prepared
    before has had its tables looked up, so that its values come first. -/
def prepare {α β : Type} (prepared : Bool) (tables : Except Rejection α) (values : Except Rejection β) :
    Except Rejection (α × β) :=
  if prepared then do
    let b ← values
    return (← tables, b)
  else do
    let a ← tables
    return (a, ← values)

/-- The table of intervals. -/
def rowTable (l : Ledger) : Except Rejection (List Row) :=
  l.rows.elim (.error (.noTable "work_intervals")) .ok

/-- The table of tasks. -/
def taskTable (l : Ledger) : Except Rejection (List Task) :=
  l.tasks.elim (.error (.noTable "tasks")) .ok

/-- The open intervals of a key. -/
def openRows (prepared : Bool) (key : KeyRef) (l : Ledger) : Except Rejection (List Row) := do
  let (rows, key) ← prepare prepared l.rowTable (bindKey key)
  return rows.filter (Row.isOpenFor key)

/-- The intervals of a user that reach into a window, by their start. -/
def overlappingRows (prepared : Bool) (user : Option Ident) (start stop : Moment) (l : Ledger) :
    Except Rejection (List Row) := do
  let stop ← bindTime stop
  let start ← bindTime start
  let (rows, user) ← prepare prepared l.rowTable (bindIdent user)
  return (rows.filter fun r => r.ofUser user && r.reaches start stop).mergeSort
    fun a b => a.started.micros ≤ b.started.micros

/-- The interval with an id. -/
def findRow (id : Uuid) (l : Ledger) : Except Rejection (Option Row) := do
  return (← l.rowTable).find? (·.id = id)

/-- A column that must not be empty. -/
def required (column : String) (value : Option Ident) : Except Rejection Ident :=
  value.elim (.error (.violates (.present column))) .ok

/-- A constraint that must hold. -/
def require (holds : Bool) (c : Constraint) : Except Rejection Unit :=
  if holds then .ok () else .error (.violates c)

/-- The parent table that the check of references needs. -/
def referenced (l : Ledger) : Except Rejection (List Task) :=
  if l.foreignKeys then l.tasks.elim (.error (.noTable "main.tasks")) .ok else .ok []

/-- The tables that an insertion needs: the intervals, and the parents for the check of references. -/
def insertTables (l : Ledger) : Except Rejection (List Row × List Task) := do
  return (← l.rowTable, ← l.referenced)

/-- Stores an interval and answers its row. Times are checked first, then the tables and the size of integers,
    then the constraints. As everywhere in the ledger, a rejected statement changes nothing, and ids are taken
    not to read as numbers. -/
def insertRow (prepared : Bool) (id : Uuid) (key : KeyRef) (started : Moment) (stopped : Option Moment)
    (l : Ledger) : Except Rejection (Row × Ledger) := do
  let started ← bindTime started
  let stopped ← bindTime? stopped
  let ((rows, parents), key) ← prepare prepared l.insertTables (bindKey key)
  let user ← required "user_id" key.user
  let task ← required "task_id" key.task
  let row : Row := ⟨id, user, task, started, stopped⟩
  require row.inOrder .stopAfterStart
  require (!(l.openUnique && row.isOpen && rows.any (Row.isOpenFor key))) .oneOpen
  require (!rows.any (·.id = id)) .ownId
  require (!l.foreignKeys || parents.any (fun t => .int t.id = task)) .taskExists
  return (row, { l with rows := some (rows ++ [row]) })

/-- Ends the interval with an id if it is open; tells how many rows changed. -/
def closeRow (id : Uuid) (stopped : Moment) (l : Ledger) : Except Rejection (Nat × Ledger) := do
  let stopped ← bindTime stopped
  let rows ← l.rowTable
  require (rows.all fun r => !r.isOpenWith id || (r.stoppedAt stopped).inOrder) .stopAfterStart
  return (rows.countP (Row.isOpenWith id),
    { l with rows := some (rows.map fun r =>
        if r.isOpenWith id then r.stoppedAt stopped else r) })

/-- The least positive number that is no task's id. -/
def freeId (tasks : List Task) : Int :=
  (((List.range (tasks.length + 1)).map fun n : Nat => (n : Int) + 1).find? fun n : Int =>
    !tasks.any (·.id = n)).getD 1

/-- The greatest id of a task. -/
def maxId : List Task → Option Int
  | [] => none
  | t :: rest => some ((maxId rest).elim t.id (max t.id))

/-- The id of the next task: one more than the greatest, and 1 in an empty table. When the
    greatest is the last of all, some free id. -/
def nextId (tasks : List Task) : Int :=
  match maxId tasks with
  | none => 1
  | some top => if top < Integer.greatest64 then top + 1 else freeId tasks

/-- Stores a task under the next id, unless ids of 64 bits have run out. -/
def insertTask (description : String) (l : Ledger) : Except Rejection (Task × Ledger) := do
  let tasks ← l.taskTable
  let task : Task := ⟨nextId tasks, description⟩
  if Integer.fits64 task.id then return (task, { l with tasks := some (tasks ++ [task]) })
  else .error .full

/-- The task with an id. -/
def findTask (prepared : Bool) (id : Int) (l : Ledger) : Except Rejection (Option Task) := do
  let (tasks, _) ← prepare prepared l.taskTable (bindInt id)
  return tasks.find? (·.id = id)

/-- A page of the tasks by id. -/
def taskPage (prepared : Bool) (limit offset : Nat) (l : Ledger) : Except Rejection (List Task) := do
  let (tasks, _) ← prepare prepared l.taskTable (do bindInt limit; bindInt offset)
  return ((tasks.mergeSort fun a b => a.id ≤ b.id).drop offset).take limit

/-- The tasks whose ids are in a list. -/
def tasksWithIds (ids : List Ident) (l : Ledger) : Except Rejection (List Task) := do
  let tasks ← l.taskTable
  return tasks.filter fun t => ids.contains (.int t.id)

/-- Replaces the description of a task. -/
def describeTask (id : Int) (description : String) (l : Ledger) : Except Rejection Ledger := do
  let tasks ← l.taskTable
  bindInt id
  return { l with tasks := some (tasks.map fun t =>
    if t.id = id then { t with description } else t) }

/-- The rows that outlive a change to the tasks: all of them, unless references are enforced. -/
def rowsAfter (gone : Ident → Bool) (l : Ledger) : Option (List Row) :=
  if l.foreignKeys then l.rows.map fun rows => rows.filter fun r => !gone r.task else l.rows

/-- Removes the task with an identifier, if it is the one of a task. -/
def deleteTask (prepared : Bool) (id : Option Ident) (l : Ledger) : Except Rejection Ledger := do
  let (tasks, id) ← prepare prepared l.taskTable (bindIdent id)
  return { l with
    tasks := some (tasks.filter fun t => some (.int t.id) ≠ id)
    rows := l.rowsAfter fun task => some task = id }

/-- Drops the table of intervals. -/
def dropRows (l : Ledger) : Ledger := { l with rows := none }

/-- Drops the table of tasks. -/
def dropTasks (l : Ledger) : Ledger :=
  { l with
    tasks := none
    rows := l.rowsAfter fun task => (l.tasks.getD []).any fun t => .int t.id = task }

/-- Drops the index of open intervals. -/
def dropOpenIndex (l : Ledger) : Ledger := { l with openUnique := false }

end Ledger
end Worklog
