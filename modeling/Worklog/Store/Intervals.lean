import Worklog.Store.Scope

namespace Worklog

/-- What beginning an interval comes to. -/
inductive Begun where
  | interval (i : Interval)
  /-- The key has an open interval. -/
  | conflict (key : KeyRef)
  deriving DecidableEq

/-- What ending an interval comes to. -/
inductive Closed where
  | interval (i : Interval)
  /-- No open interval has the id. -/
  | notFound (id : Uuid)
  deriving DecidableEq

/-- A store of intervals with states `σ`. -/
structure IntervalStore (σ : Type) where
  /-- The open interval of a key. -/
  openInterval : KeyRef → Run Fault σ (Option Interval)
  /-- Begins an interval under a fresh id. -/
  beginInterval : Uuid → KeyRef → Moment → Run Fault σ Begun
  /-- Ends the open interval with an id. -/
  closeInterval : Uuid → Moment → Run Fault σ Closed
  /-- The intervals of a user that reach into a window. -/
  intervalsOverlapping : Option Ident → Moment → Moment → Run Fault σ (List Interval)
  /-- Adds a record to the log. -/
  note : Log.Record → Run Fault σ Unit

namespace Primitive

/-- The logger of the store. -/
def logger : String := "timetrack.infrastructure.interval_store"

/-- The context of a primitive that is called with a key. -/
def keyContext (operation : String) (key : KeyRef) : Context :=
  { user := key.user, task := key.task, operation := some operation }

/-- The context of the ending of an interval, which knows no key. -/
def closeContext (id : Uuid) : Context :=
  { operation := some "close_interval", debug := some (.obj [("interval_id", .str id.text)]) }

/-- The only row of an answer; several are a violation of the rules. -/
def single (key : KeyRef) : List Row → Work (Option Interval)
  | [] => pure none
  | [r] => pure (some r.interval)
  | rows => Work.refuse ⟨.violation (.severalOpen rows.length), keyContext "open_interval" key⟩

/-- The open interval of a key. -/
def openInterval (key : KeyRef) : Use (Option Interval) :=
  Database.scope (keyContext "open_interval" key) do
    single key (← Work.ask .execute (.openRows key.user.isSome key.task.isSome)
      fun prepared => Ledger.openRows prepared key)

/-- What the log says of an insertion that was rejected. -/
def rejected (key : KeyRef) (e : StorageError) : Log.Record :=
  Log.Level.error.record logger ("Insert rejected: " ++ e.text) (.ofKey key.user key.task)

/-- Stores an interval and makes it lasting. The answer keeps key and times as they were handed in. -/
def insert (fresh : Uuid) (key : KeyRef) (started : Moment) (stopped : Option Moment) :
    Work Interval := do
  let row ← Work.tell .flush .insertRow fun prepared =>
    Ledger.insertRow prepared fresh key started stopped
  Work.commit
  return ⟨fresh, key.user.getD row.user, key.task.getD row.task, started, stopped⟩

/-- Tries to begin an interval. What is raised has undone everything. -/
def attemptBegin (fresh : Uuid) (key : KeyRef) (started : Moment) :
    Use (Except Raised Interval) :=
  Database.attempt (insert fresh key started none)

/-- What a violated constraint means for the beginning of an interval. -/
def beginRejected (key : KeyRef) (e : StorageError) : Use Begun :=
  if e.refusal.blamesOpenIndex then return .conflict key
  else do
    Run.change (Database.note (rejected key e))
    Run.fail (.failure (Failure.storage .constraint "begin_interval"
      (some (keyContext "begin_interval" key))))

/-- What an attempt to begin an interval comes to. It is judged by the constraint that was
    violated and never by reading again: the key may have been freed since. -/
def judgeBegin (key : KeyRef) : Except Raised Interval → Use Begun
  | .ok i => return .interval i
  | .error (.storage e) =>
    if e.kind = .integrity then beginRejected key e
    else Database.leave (keyContext "begin_interval" key) (.storage e)
  | .error (.fault f) => Database.leave (keyContext "begin_interval" key) (.fault f)

/-- Begins an interval. -/
def beginInterval (fresh : Uuid) (key : KeyRef) (started : Moment) : Use Begun := do
  judgeBegin key (← attemptBegin fresh key started)

/-- Ends the interval with an id if it is open; the answer is the number of rows changed. -/
def closeRow (id : Uuid) (stopped : Moment) : Work Nat :=
  Run.handle (Work.write .execute (Ledger.closeRow id stopped)) fun
    | .storage e =>
      if e.kind = .integrity then do
        Work.rollback
        Work.refuse (Failure.storage .constraint "close_interval" (some (closeContext id)))
      else Run.fail (.storage e)
    | r => Run.fail r

/-- Ends an interval, unless it is not open. -/
def closeInterval (id : Uuid) (stopped : Moment) : Use Closed :=
  Database.scope (closeContext id) do
    if (← closeRow id stopped) = 0 then
      Work.rollback
      return .notFound id
    else
      let row? ← Work.read .load (Ledger.findRow id)
      Work.commit
      return row?.elim (.notFound id) fun r => .interval r.interval

/-- The intervals of a user that reach into a window, by their start. -/
def intervalsOverlapping (user : Option Ident) (start stop : Moment) : Use (List Interval) :=
  Database.scope (some { user, operation := some "intervals_overlapping" }) do
    let rows ← Work.ask .execute (.overlappingRows user.isSome) fun prepared =>
      Ledger.overlappingRows prepared user start stop
    return rows.map Row.interval

end Primitive

/-- The database as a store of intervals. Each primitive is one scope. -/
def Database.intervals : IntervalStore Database where
  openInterval := Primitive.openInterval
  beginInterval := Primitive.beginInterval
  closeInterval := Primitive.closeInterval
  intervalsOverlapping := Primitive.intervalsOverlapping
  note r := Run.change (Database.note r)

end Worklog
