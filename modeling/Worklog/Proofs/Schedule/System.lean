import Worklog.Proofs.Database.Ledger
import Worklog.Session.Call

namespace Worklog

/-- One of the first ten microseconds of the calendar, for schedules that are written out. -/
def tick (n : Nat) : Moment :=
  ⟨n % 10, some .utc, Nat.lt_trans (Nat.mod_lt n (by decide)) (by decide)⟩

/-- The same microseconds as the store keeps them. -/
def beat (n : Nat) : Instant :=
  ⟨n % 10, Nat.lt_trans (Nat.mod_lt n (by decide)) (by decide)⟩

/-- A change of a key's state that a client asks for. A start brings the id of its interval. -/
inductive Session.Request where
  | start (fresh : Uuid) (key : KeyRef)
  | stop (key : KeyRef)
  deriving DecidableEq

/-- Where a start or a stop stands between two of its steps. -/
inductive Session.Stage where
  /-- A start that has read the clock and will insert. -/
  | stamped (fresh : Uuid) (key : KeyRef) (now : Moment)
  /-- A stop that has found an open interval and will read the clock. -/
  | found (key : KeyRef) (interval : Interval)
  /-- A stop that has read the clock and will close. -/
  | timed (key : KeyRef) (interval : Interval) (now : Moment)
  deriving DecidableEq

/-- The id that a start under way will give to its interval. -/
def Session.Stage.fresh? : Session.Stage → Option Uuid
  | stamped fresh _ _ => some fresh
  | found _ _ | timed _ _ _ => none

/-- A start or a stop under way, with the number of its first event. -/
structure Session.Pending where
  began : Nat
  stage : Session.Stage
  deriving DecidableEq

/-- A report that a client asks for. -/
structure Report.Request where
  user : Option Ident
  start : Moment
  stop : Moment

/-- A report under way, which has read its rows. -/
structure Report.Pending where
  began : Nat
  request : Report.Request
  window : Window
  intervals : List Interval

/-- A call that has come to its end: what was asked, the numbers of its first and last events, the time
    that it read from the clock, and its answer. -/
structure Finished (ρ α : Type) where
  request : ρ
  began : Nat
  ended : Nat
  now : Moment
  answer : Except Fault α

/-- A primitive of the store with its arguments. -/
inductive PrimitiveCall where
  | openInterval (key : KeyRef)
  | beginInterval (fresh : Uuid) (key : KeyRef) (started : Moment)
  | closeInterval (id : Uuid) (stopped : Moment)
  | intervalsOverlapping (user : Option Ident) (start stop : Moment)

/-- The database that a primitive leaves. -/
def PrimitiveCall.run : PrimitiveCall → Database → Database
  | openInterval key, db => (Primitive.openInterval key db).2
  | beginInterval fresh key started, db => (Primitive.beginInterval fresh key started db).2
  | closeInterval id stopped, db => (Primitive.closeInterval id stopped db).2
  | intervalsOverlapping user start stop, db => (Primitive.intervalsOverlapping user start stop db).2

/-- What can happen next. Calls under way are named by their places. -/
inductive Event where
  /-- The clock moves. -/
  | clock (m : Moment)
  /-- A start or a stop takes its first step. -/
  | ask (r : Session.Request)
  /-- A start or a stop under way takes its next step. -/
  | resume (n : Nat)
  /-- A report reads its rows. -/
  | read (r : Report.Request)
  /-- A report under way adds up. -/
  | add (n : Nat)
  /-- Somebody uses a primitive directly. -/
  | use (p : PrimitiveCall)

/-- One database with all calls on it. Each step of a call is one event, and events of different calls may
    follow each other in any order. -/
structure System where
  database : Database
  clock : Moment
  /-- The number of events so far. -/
  steps : Nat := 0
  pending : List Session.Pending := []
  finished : List (Finished Session.Request Interval) := []
  gathered : List Report.Pending := []
  reported : List (Finished Report.Request (List TaskTime)) := []

namespace System

/-- A database on which nobody works yet, with a clock. -/
def on (db : Database) (clock : Moment) : System := { database := db, clock }

/-- A start or a stop comes to its end. -/
def conclude (s : System) (r : Session.Request) (began : Nat) (now : Moment)
    (out : Except Fault Interval × Database) : System :=
  { s with database := out.2, finished := s.finished ++ [⟨r, began, s.steps, now, out.1⟩] }

/-- A report comes to its end. -/
def deliver (s : System) (r : Report.Request) (began : Nat)
    (out : Except Fault (List TaskTime) × Database) : System :=
  { s with database := out.2, reported := s.reported ++ [⟨r, began, s.steps, s.clock, out.1⟩] }

/-- The first step of a start or a stop. A stop that finds nothing has no other step. -/
def ask (s : System) : Session.Request → System
  | .start fresh key => { s with pending := s.pending ++ [⟨s.steps, .stamped fresh key s.clock⟩] }
  | .stop key =>
    match Session.find Database.intervals key s.database with
    | (.ok (some i), db) =>
      { s with database := db, pending := s.pending ++ [⟨s.steps, .found key i⟩] }
    | (.ok none, db) =>
      s.conclude (.stop key) s.steps s.clock (Session.finish Database.intervals key none s.clock db)
    | (.error f, db) => s.conclude (.stop key) s.steps s.clock (.error f, db)

/-- The next step of a start or a stop under way, which takes the last place if it has another one. -/
def resume (s : System) (n : Nat) : System :=
  match s.pending[n]? with
  | none => s
  | some ⟨began, stage⟩ =>
    let rest := s.pending.eraseIdx n
    match stage with
    | .stamped fresh key now =>
      { s with pending := rest }.conclude (.start fresh key) began now
        (Session.start Database.intervals fresh now key s.database)
    | .found key i => { s with pending := rest ++ [⟨began, .timed key i s.clock⟩] }
    | .timed key i now =>
      { s with pending := rest }.conclude (.stop key) began now
        (Session.finish Database.intervals key (some i) now s.database)

/-- The first step of a report. Nothing is read for a window that is refused or empty. -/
def read (s : System) (r : Report.Request) : System :=
  match Window.check r.start r.stop with
  | .error f => s.deliver r s.steps (.error f, s.database)
  | .ok w =>
    if w.isEmpty then s.deliver r s.steps (.ok [], s.database)
    else
      match Database.intervals.intervalsOverlapping r.user w.start w.stop s.database with
      | (.ok is, db) => { s with database := db, gathered := s.gathered ++ [⟨s.steps, r, w, is⟩] }
      | (.error f, db) => s.deliver r s.steps (.error f, db)

/-- The last step of a report under way. -/
def add (s : System) (n : Nat) : System :=
  match s.gathered[n]? with
  | none => s
  | some p =>
    { s with gathered := s.gathered.eraseIdx n }.deliver p.request p.began
      (Report.finish Database.intervals p.request.user p.window p.intervals s.clock s.database)

/-- What an event makes of a system, apart from the count of events. -/
def act (s : System) : Event → System
  | .clock m => { s with clock := m }
  | .ask r => s.ask r
  | .resume n => s.resume n
  | .read r => s.read r
  | .add n => s.add n
  | .use p => { s with database := p.run s.database }

/-- One event. -/
def step (s : System) (e : Event) : System := { s.act e with steps := s.steps + 1 }

/-- One event after the other. -/
def run (s : System) (events : List Event) : System := events.foldl step s

theorem run_append (s : System) (events later : List Event) :
    s.run (events ++ later) = (s.run events).run later := List.foldl_append

/-- No stored row and no start under way has the id. -/
def Unused (s : System) (id : Uuid) : Prop :=
  (∀ r ∈ s.database.ledger.rows.getD [], r.id ≠ id) ∧ ∀ p ∈ s.pending, p.stage.fresh? ≠ some id

instance (s : System) (id : Uuid) : Decidable (s.Unused id) := inferInstanceAs (Decidable (_ ∧ _))

/-- What well-behaved surroundings do: the clock never goes back, keys are pairs of 64-bit integers,
    every start gets a new id and names a task that the database can refer to, and intervals are changed
    by starts and stops only. -/
def Permits (s : System) : Event → Prop
  | .clock m => m.Storable ∧ s.clock.instant ≤ m.instant
  | .ask (.start fresh key) =>
    key.fits = true ∧ s.Unused fresh ∧ s.database.ledger.admits key = true
  | .ask (.stop key) => key.fits = true
  | .resume _ | .read _ | .add _ => True
  | .use _ => False

instance (s : System) : (e : Event) → Decidable (s.Permits e)
  | .clock _ => inferInstanceAs (Decidable (_ ∧ _))
  | .ask (.start _ _) => inferInstanceAs (Decidable (_ ∧ _ ∧ _))
  | .ask (.stop _) => inferInstanceAs (Decidable (_ = _))
  | .resume _ | .read _ | .add _ => instDecidableTrue
  | .use _ => instDecidableFalse

/-- All events are permitted when they happen. -/
def Steady : System → List Event → Prop
  | _, [] => True
  | s, e :: events => s.Permits e ∧ (s.step e).Steady events

instance steadyDecidable : (s : System) → (events : List Event) → Decidable (s.Steady events)
  | _, [] => instDecidableTrue
  | s, e :: events =>
    have := steadyDecidable (s.step e) events
    inferInstanceAs (Decidable (_ ∧ _))

end System
end Worklog
