import Worklog.Failure
import Worklog.Log.Record
import Worklog.Store.Complaint

namespace Worklog

/-- The classes of storage errors, the most specific first. -/
inductive StorageClass where
  /-- A constraint would be violated. -/
  | integrity
  /-- The database cannot work at all. -/
  | operational
  /-- Any other complaint of the database. -/
  | driver
  /-- A complaint of the access library. -/
  | general
  deriving DecidableEq, Repr

namespace StorageClass

/-- The class under which an error is caught that belongs to several: the most specific of them. -/
def caught? (classes : List StorageClass) : Option StorageClass :=
  [integrity, operational, driver, general].find? (classes.contains ·)

/-- What users are told about an error of the class. -/
def problem : StorageClass → StorageProblem
  | integrity => .constraint
  | operational => .connection
  | driver => .driver
  | general => .general

/-- The operation that is blamed when none is named. -/
def operation : StorageClass → String
  | integrity => "commit"
  | operational => "execute"
  | driver => "query"
  | general => "unknown"

/-- How the log introduces an error of the class. -/
def label : StorageClass → String
  | integrity => "DB integrity error"
  | operational => "DB operational error"
  | driver => "DB driver error"
  | general => "SQLAlchemy error"

end StorageClass

/-- An error of the storage: its class and the words of the database. -/
structure StorageError where
  kind : StorageClass
  refusal : Refusal
  deriving DecidableEq, Repr

/-- The words of the database, for the log. -/
def StorageError.text (e : StorageError) : String :=
  (e.refusal.complaint.map Complaint.message).getD ""

/-- What ends the work inside a scope early. -/
inductive Raised where
  | storage (e : StorageError)
  | fault (f : Fault)

/-- An error by the classes that it belongs to. One that belongs to none of them is no storage error, and is
    the fault `other`. -/
def Raised.ofClasses (classes : List StorageClass) (refusal : Refusal) (other : Fault) : Raised :=
  match StorageClass.caught? classes with
  | some kind => storage ⟨kind, refusal⟩
  | none => fault other

/-- The constraints on stored rows. -/
inductive Constraint where
  /-- A column must have a value. -/
  | present (column : String)
  /-- An interval does not end before it starts. -/
  | stopAfterStart
  /-- A key has one open interval. -/
  | oneOpen
  /-- An interval's id is its own. -/
  | ownId
  /-- An interval belongs to a task. -/
  | taskExists
  deriving DecidableEq, Repr

/-- How the database words a violation. -/
def Constraint.complaint : Constraint → String
  | present column => "NOT NULL constraint failed: work_intervals." ++ column
  | stopAfterStart => "CHECK constraint failed: ck_work_intervals_stop_after_start"
  | oneOpen => openIndexMessage
  | ownId => "UNIQUE constraint failed: work_intervals.id"
  | taskExists => "FOREIGN KEY constraint failed"

/-- Why the database does not carry out a statement. -/
inductive Rejection where
  /-- A time that cannot be stored. -/
  | time (fault : ClockFault)
  | noTable (name : String)
  /-- An integer outside 64 bits. -/
  | tooWide
  /-- No id is left for another row. -/
  | full
  | violates (c : Constraint)
  deriving DecidableEq, Repr

namespace Rejection

/-- An error with the words of the database. -/
def error (kind : StorageClass) (message : String) : Raised :=
  .storage ⟨kind, ⟨some ⟨message, none⟩, none⟩⟩

/-- What a rejection raises. -/
def raised : Rejection → Raised
  | time .mixed => error .general "times of different kinds"
  | time .naive => error .general "naive datetime cannot be stored as UTC"
  | time .outOfRange => error .general "date value out of range"
  | noTable name => error .operational ("no such table: " ++ name)
  | tooWide => .fault .tooWide
  | full => error .operational "database or disk is full"
  | violates c => error .integrity c.complaint

end Rejection
end Worklog
