import Worklog.Run
import Worklog.Store.Ledger

namespace Worklog

/-- The ways in which work reaches the database. -/
inductive Verb where
  /-- A statement of the caller. -/
  | execute
  /-- The loading of one known row. -/
  | load
  /-- The writing of pending changes. -/
  | flush
  | commit
  deriving DecidableEq, Repr

/-- The statements that are told apart when they come again; what is missing is asked for in other words. -/
inductive Query where
  | insertRow
  | openRows (user task : Bool)
  | overlappingRows (user : Bool)
  | findTask
  | taskPage
  | deleteTask
  deriving DecidableEq, Repr

/-- What goes wrong from outside: for each access, by its number and kind, the error that replaces
    it, if any. -/
abbrev Disruption := Nat → Verb → Option Raised

/-- The database as the services see it: what is committed, how often it has been reached, which
    statements it has prepared, what disturbs it, and the log. -/
structure Database where
  ledger : Ledger := {}
  accesses : Nat := 0
  prepared : List Query := []
  disruption : Disruption := fun _ _ => none
  log : List Log.Record := []

/-- A scope: the database, and the copy that is worked on. Only a commit makes the copy lasting, and whatever
    ends the scope early undoes what was not committed. -/
structure Scope where
  database : Database
  working : Ledger

/-- Work inside a scope. -/
abbrev Work := Run Raised Scope

/-- Adds a record to the log. -/
def Database.note (r : Log.Record) (db : Database) : Database := { db with log := db.log ++ [r] }

namespace Work

variable {α : Type}

/-- Reaches the database, unless it is disturbed. -/
def access (verb : Verb) : Work Unit := fun s =>
  let db := s.database
  let next := { s with database := { db with accesses := db.accesses + 1 } }
  match db.disruption db.accesses verb with
  | some r => (.error r, next)
  | none => (.ok (), next)

/-- Reads the working copy. -/
def read (verb : Verb) (statement : Ledger → Except Rejection α) : Work α := do
  access verb
  let l ← Run.look Scope.working
  Run.ofExcept ((statement l).mapError Rejection.raised)

/-- Changes the working copy. -/
def write (verb : Verb) (statement : Ledger → Except Rejection (α × Ledger)) : Work α := do
  let (a, l) ← read verb statement
  Run.change fun s => { s with working := l }
  return a

/-- Notes that the database has prepared a statement, which it has unless it was refused for its times or
    its tables. -/
def prepare (q : Query) (r : Except Rejection α) : Work Unit :=
  match r with
  | .error (.time _) | .error (.noTable _) => pure ()
  | _ => Run.change fun s =>
    { s with database := { s.database with prepared := q :: s.database.prepared } }

/-- Reads the working copy by a statement that may have been prepared. -/
def ask (verb : Verb) (q : Query) (statement : Bool → Ledger → Except Rejection α) : Work α := do
  access verb
  let s ← Run.look id
  let r := statement (s.database.prepared.contains q) s.working
  prepare q r
  Run.ofExcept (r.mapError Rejection.raised)

/-- Changes the working copy by a statement that may have been prepared. -/
def tell (verb : Verb) (q : Query) (statement : Bool → Ledger → Except Rejection (α × Ledger)) :
    Work α := do
  let (a, l) ← ask verb q statement
  Run.change fun s => { s with working := l }
  return a

/-- Makes the working copy lasting. -/
def commit : Work Unit := do
  access .commit
  Run.change fun s => { s with database := { s.database with ledger := s.working } }

/-- Goes back to what was committed last. -/
def rollback : Work Unit := Run.change fun s => { s with working := s.database.ledger }

/-- Adds a record to the log. -/
def note (r : Log.Record) : Work Unit :=
  Run.change fun s => { s with database := s.database.note r }

/-- Ends the scope with a failure. -/
def refuse (f : Failure) : Work α := Run.fail (.fault (.failure f))

end Work

namespace Raised

/-- The logger of the database. -/
def logger : String := "timetrack.infrastructure.database"

/-- The fault with which an error leaves a scope. A storage error says no more than its class. A context that
    names an operation is believed. -/
def settle (context : Option Context) : Raised → Fault
  | fault f => f
  | storage e =>
    .failure (Failure.storage e.kind.problem
      (Failure.namedOperation (context.getD {}) e.kind.operation) context)

/-- What the log says of an error that leaves a scope. -/
def notes : Raised → List Log.Record
  | fault _ => []
  | storage e => [Log.Level.error.record logger (e.kind.label ++ ": " ++ e.text)]

end Raised

/-- A use of the database from outside any scope. -/
abbrev Use := Run Fault Database

namespace Database

variable {α : Type}

/-- Runs work in a scope of its own and undoes what it left uncommitted. -/
def attempt (work : Work α) : Use (Except Raised α) := fun db =>
  let (r, s) := work ⟨db, db.ledger⟩
  (.ok r, s.database)

/-- Leaves a scope with an error. -/
def leave (context : Option Context) (r : Raised) : Use α := fun db =>
  (.error (r.settle context), r.notes.foldl (fun db n => db.note n) db)

/-- Runs work in a scope of its own, and leaves the scope as the work ended. -/
def scope (context : Option Context) (work : Work α) : Use α := do
  match ← attempt work with
  | .ok a => return a
  | .error r => leave context r

end Database
end Worklog
