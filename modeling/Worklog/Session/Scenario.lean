import Worklog.Session.Call

namespace Worklog

/-- The primitives of a store. -/
inductive PrimitiveName where
  | openInterval
  | beginInterval
  | closeInterval
  | intervalsOverlapping
  deriving DecidableEq, Repr

namespace PrimitiveName

def text : PrimitiveName → String
  | openInterval => "open_interval"
  | beginInterval => "begin_interval"
  | closeInterval => "close_interval"
  | intervalsOverlapping => "intervals_overlapping"

/-- The primitive with a name. -/
def ofText? (s : String) : Option PrimitiveName :=
  [openInterval, beginInterval, closeInterval, intervalsOverlapping].find? (·.text = s)

end PrimitiveName

/-- A stop that has looked for its interval and waits. -/
structure PausedStop where
  tag : String
  key : KeyRef
  found : Option Interval

/-- The state of a scenario. -/
structure World where
  clock : Moment
  database : Database := {}
  /-- The failures that await the next calls of primitives. -/
  pending : List (PrimitiveName × Failure) := []
  paused : List PausedStop := []
  /-- The primitives that were called, the latest first. -/
  calls : List PrimitiveName := []

/-- A step of a scenario, which is one database with a clock that the steps set. -/
abbrev Deed := Run Fault World

namespace World

variable {α : Type}

/-- Uses the database. -/
def use (x : Use α) : Deed α := Run.within World.database (fun db w => { w with database := db }) x

/-- Counts the call of a primitive, which fails if a failure awaits it. -/
def call (p : PrimitiveName) : Deed Unit := fun w =>
  let w := { w with calls := p :: w.calls }
  match w.pending.find? (·.1 = p) with
  | some (_, f) => (.error f, { w with pending := w.pending.filter (·.1 ≠ p) })
  | none => (.ok (), w)

/-- The store of a scenario: the database, with an account of the calls. -/
def store : IntervalStore World where
  openInterval key := do
    call .openInterval
    use (Primitive.openInterval key)
  beginInterval fresh key started := do
    call .beginInterval
    use (Primitive.beginInterval fresh key started)
  closeInterval id stopped := do
    call .closeInterval
    use (Primitive.closeInterval id stopped)
  intervalsOverlapping user start stop := do
    call .intervalsOverlapping
    use (Primitive.intervalsOverlapping user start stop)
  note r := use (Run.change (Database.note r))

/-- The time of the scenario. -/
def now : Deed Moment := Run.look World.clock

/-- The store of a start during which, after its insertion has been rejected, a stop of the same
    key runs. A stop that fails decides how the start ends. -/
def contestedStore : IntervalStore World :=
  { store with
    beginInterval := fun fresh key started => do
      call .beginInterval
      let attempted ← use (Primitive.attemptBegin fresh key started)
      match attempted with
      | .error (.storage _) => let _ ← Session.stop store (← now) key
      | _ => pure ()
      use (Primitive.judgeBegin key attempted) }

end World

/-- A step of a scenario. -/
inductive Step where
  | clock (m : Moment)
  | advance (micros : Int)
  /-- A start, `contested` when a stop runs should its insertion be rejected. -/
  | start (key : KeyRef) (contested : Bool)
  | stop (key : KeyRef)
  | pauseStop (tag : String) (key : KeyRef)
  | resumeStop (tag : String)
  | cancelStop (tag : String)
  | report (user : Option Ident) (start stop : Moment)
  | openInterval (key : KeyRef)
  | beginInterval (key : KeyRef) (started : Moment)
  | closeInterval (id : Uuid) (stopped : Moment)
  | overlapping (user : Option Ident) (start stop : Moment)
  /-- A failure that awaits the next call of a primitive; it waits for ever if there is no such one. -/
  | fail (p : Option PrimitiveName) (f : Failure)
  | dropRows
  | dropTasks
  | dropOpenIndex
  | insert (key : KeyRef) (started : Moment) (stopped : Option Moment)
  | deleteTask (id : Option Ident)
  | dump

/-- What a step answers. -/
inductive Reply where
  | nothing
  | word (s : String)
  /-- No stop waits under a tag. -/
  | noStop (tag : String)
  | time (m : Moment)
  | interval (i : Option Interval)
  | conflict (key : KeyRef)
  | notFound (id : Uuid)
  | intervals (is : List Interval)
  | rows (rows : List TaskTime)

namespace Step

/-- Changes the committed ledger. -/
def change (f : Ledger → Ledger) : Deed Reply := fun w =>
  (.ok .nothing, { w with database := { w.database with ledger := f w.database.ledger } })

/-- Sets the clock. -/
def setClock (m : Moment) : Deed Unit := Run.change fun w => { w with clock := m }

/-- Moves the clock. -/
def moveClock (micros : Int) : Deed Moment := do
  let micros ← Run.ofExcept ((Duration.checked micros).mapError Fault.tooLong)
  let m ← Run.ofExcept (ofClock ((← World.now).shift micros))
  setClock m
  return m

/-- Takes the stop with a tag out of those that wait. -/
def takePaused (tag : String) : Deed (Option PausedStop) := fun w =>
  (.ok (w.paused.find? (·.tag = tag)), { w with paused := w.paused.filter (·.tag ≠ tag) })

/-- All stored intervals. -/
def storedRows : Work (List Interval) := do
  return (← Work.read .execute Ledger.rowTable).map Row.interval

/-- The effect and the answer of a step. `fresh` is the id of an interval it may store. -/
def run (fresh : Uuid) : Step → Deed Reply
  | .clock m => do
    setClock m
    return .nothing
  | .advance micros => do return .time (← moveClock micros)
  | .start key contested => do
    let store := if contested then World.contestedStore else World.store
    return .interval (← Session.start store fresh (← World.now) key)
  | .stop key => do return .interval (← Session.stop World.store (← World.now) key)
  | .pauseStop tag key => do
    let found ← Session.find World.store key
    Run.change fun w =>
      { w with paused := ⟨tag, key, found⟩ :: w.paused.filter (·.tag ≠ tag) }
    return .word "paused"
  | .resumeStop tag => do
    match ← takePaused tag with
    | some p => return .interval (← Session.finish World.store p.key p.found (← World.now))
    | none => return .word "not paused"
  | .cancelStop tag => do
    match ← takePaused tag with
    | some _ => return .word "cancelled"
    | none => return .noStop tag
  | .report user low high => do
    return .rows (← Report.run World.store (← World.now) user low high)
  | .openInterval key => do return .interval (← World.store.openInterval key)
  | .beginInterval key started => do
    match ← World.store.beginInterval fresh key started with
    | .interval i => return .interval i
    | .conflict key => return .conflict key
  | .closeInterval id stopped => do
    match ← World.store.closeInterval id stopped with
    | .interval i => return .interval i
    | .notFound id => return .notFound id
  | .overlapping user low high => do
    return .intervals (Interval.listing (← World.store.intervalsOverlapping user low high))
  | .fail (some p) f => do
    Run.change fun w => { w with pending := (p, f) :: w.pending.filter (·.1 ≠ p) }
    return .nothing
  | .fail none _ => return .nothing
  | .dropRows => change Ledger.dropRows
  | .dropTasks => change Ledger.dropTasks
  | .dropOpenIndex => change Ledger.dropOpenIndex
  | .insert key started stopped => do
    return .interval (← World.use (Database.scope none (Primitive.insert fresh key started stopped)))
  | .deleteTask id => do
    World.use (Database.scope none do
      Work.tell .execute .deleteTask fun prepared l => (l.deleteTask prepared id).map ((), ·)
      Work.commit)
    return .nothing
  | .dump => do return .intervals (Interval.listing (← World.use (Database.scope none storedRows)))

end Step

/-- What is seen of a step: its answer, the primitives it called and what it logged. -/
structure Seen where
  reply : Except Fault Reply
  calls : List PrimitiveName
  log : List Log.Record

/-- One step with its account. -/
def World.step (fresh : Uuid) (step : Step) (w : World) : Seen × World :=
  let quiet := { w with calls := [], database := { w.database with log := [] } }
  let (reply, w) := step.run fresh quiet
  (⟨reply, w.calls.reverse, w.database.log⟩, w)

end Worklog
