import Worklog.Proofs.Database.History
import Worklog.Proofs.Schedule.System
import Worklog.Proofs.Session.Calls

namespace Worklog

namespace Database

/-- The table of intervals is there and empty, and the index of open intervals is in force. -/
structure Blank (db : Database) : Prop where
  rows : db.ledger.rows = some []
  openUnique : db.ledger.openUnique = true

/-- What the surroundings raise are errors of their own: storage errors, cancellations and the like, and
    never the failures that this library words. -/
def ForeignErrors (db : Database) : Prop := ∀ e f, db.Raises e → e ≠ .fault (.failure f)

/-- A database after one use of its intervals. -/
structure Follows (a b : Database) : Prop where
  touched : a.ledger.Touched b.ledger
  disruption : b.disruption = a.disruption

variable {a b c : Database}

theorem Alike.follows (h : a.Alike b) : a.Follows b where
  touched := h.ledger ▸ .same _
  disruption := h.disruption

theorem Follows.alike (h : a.Follows b) (hlike : b.Alike c) : a.Follows c where
  touched := hlike.ledger ▸ h.touched
  disruption := hlike.disruption.trans h.disruption

end Database

namespace Primitive

theorem beginInterval_follows (fresh : Uuid) (key : KeyRef) (started : Moment) (db : Database) :
    db.Follows (beginInterval fresh key started db).2 := by
  rcases hbegin : beginInterval fresh key started db with ⟨r, db'⟩
  obtain ⟨hdisruption, ⟨_, _, hinsert, _⟩ | ⟨hledger, _⟩⟩ := beginInterval_cases hbegin
  · exact ⟨.inserted hinsert, hdisruption⟩
  · exact Database.Alike.follows ⟨hledger, hdisruption⟩

theorem closeInterval_follows (id : Uuid) (stopped : Moment) (db : Database) :
    db.Follows (closeInterval id stopped db).2 := by
  rcases hclose : closeInterval id stopped db with ⟨r, db'⟩
  obtain ⟨hdisruption, ⟨_, _, _, hended, _⟩ | ⟨hledger, _⟩⟩ := closeInterval_cases hclose
  · exact ⟨.ended hended, hdisruption⟩
  · exact Database.Alike.follows ⟨hledger, hdisruption⟩

theorem openInterval_alike (key : KeyRef) (db : Database) : db.Alike (openInterval key db).2 :=
  (openInterval_cases rfl).1

theorem intervalsOverlapping_alike (user : Option Ident) (start stop : Moment) (db : Database) :
    db.Alike (intervalsOverlapping user start stop db).2 :=
  (intervalsOverlapping_cases rfl).1

/-- A rejected statement never leaves as a violation of the rules, nor does a foreign error. -/
private theorem settle_ne_violation {α : Type} {db : Database} {answer : Bool → Except Rejection α}
    {context : Option Context} {e : Raised} {f : Failure} {what : Violation} (hforeign : db.ForeignErrors)
    (he : db.Refuses answer e) (hsettle : e.settle context = .failure f) :
    f.cause ≠ .violation what := by
  cases e with
  | storage e =>
    cases hsettle
    simp [Failure.storage]
  | fault g =>
    cases hsettle
    obtain hraised | ⟨_, x, _, hx⟩ := he
    · exact absurd rfl (hforeign _ f hraised)
    · rcases x with (_ | _ | _) | _ | _ | _ <;> cases hx

/-- Looking for the open interval of a key finds no violation in a consistent table. -/
theorem openInterval_ne_violation {db : Database} {rows : List Row} {key : KeyRef} {f : Failure}
    {what : Violation} (hforeign : db.ForeignErrors) (hrows : db.ledger.rows = some rows)
    (hfine : Consistent rows) (h : (openInterval key db).1 = .error (.failure f)) :
    f.cause ≠ .violation what := by
  rcases hopen : openInterval key db with ⟨r, db'⟩
  rw [hopen] at h
  obtain ⟨_, ⟨_, opened, hopened, hr⟩ | ⟨e, hr, he⟩⟩ := openInterval_cases hopen
  · obtain ⟨table, key', htable, rfl⟩ := Ledger.openRows_eq_ok hopened
    obtain rfl := Option.some.inj (htable.symm.trans hrows)
    obtain hnone | ⟨row, _, _, hone⟩ := hfine.filter_open key'
    · rw [hnone] at hr
      cases hr.symm.trans h
    · rw [hone] at hr
      cases hr.symm.trans h
  · exact settle_ne_violation hforeign he (Except.error.inj (hr.symm.trans h))

end Primitive

theorem PrimitiveCall.run_follows (p : PrimitiveCall) (db : Database) : db.Follows (p.run db) := by
  cases p with
  | openInterval key => exact (Primitive.openInterval_alike key db).follows
  | beginInterval fresh key started => exact Primitive.beginInterval_follows fresh key started db
  | closeInterval id stopped => exact Primitive.closeInterval_follows id stopped db
  | intervalsOverlapping user start stop =>
    exact (Primitive.intervalsOverlapping_alike user start stop db).follows

namespace Session

theorem start_follows (fresh : Uuid) (now : Moment) (key : KeyRef) (db : Database) :
    db.Follows (start Database.intervals fresh now key db).2 := by
  obtain ⟨begun, db₁, hbegin, hlike, _⟩ := start_cases
    (rfl : start Database.intervals fresh now key db = (_, _))
  have hfollows := Primitive.beginInterval_follows fresh key now db
  rw [hbegin] at hfollows
  exact hfollows.alike hlike

theorem find_alike (key : KeyRef) (db : Database) : db.Alike (find Database.intervals key db).2 := by
  rw [find_eq]
  exact Primitive.openInterval_alike key db

theorem finish_follows (key : KeyRef) (found : Option Interval) (now : Moment) (db : Database) :
    db.Follows (finish Database.intervals key found now db).2 := by
  cases found with
  | none =>
    obtain ⟨db', hrefuse, hlike⟩ := refuseStop_eq key now db
    rw [hrefuse]
    exact hlike.follows
  | some i =>
    obtain ⟨closed, db₁, hclose, hlike, _⟩ := finish_cases
      (rfl : finish Database.intervals key (some i) now db = (_, _))
    have hfollows := Primitive.closeInterval_follows i.id now db
    rw [hclose] at hfollows
    exact hfollows.alike hlike

end Session

namespace System

/-- An event makes one use of the intervals at most. -/
theorem step_follows (s : System) (e : Event) : s.database.Follows (s.step e).database := by
  have hsame : s.database.Follows s.database := (Database.Alike.refl _).follows
  cases e with
  | clock m => exact hsame
  | use p => exact p.run_follows s.database
  | ask r =>
    cases r with
    | start fresh key => exact hsame
    | stop key =>
      have hfind := Session.find_alike key s.database
      simp only [step, act, ask]
      generalize Session.find Database.intervals key s.database = out at hfind ⊢
      obtain ⟨_ | _ | i, db⟩ := out
      · exact hfind.follows
      · obtain ⟨db', hrefuse, hlike⟩ := Session.refuseStop_eq key s.clock db
        simp only [conclude, hrefuse]
        exact (hfind.trans hlike).follows
      · exact hfind.follows
  | resume n =>
    simp only [step, act, resume]
    split
    · exact hsame
    · next began stage _ =>
      cases stage with
      | stamped fresh key now => exact Session.start_follows fresh now key s.database
      | found key i => exact hsame
      | timed key i now => exact Session.finish_follows key (some i) now s.database
  | read r =>
    simp only [step, act, read]
    split
    · exact hsame
    · next w _ =>
      split
      · exact hsame
      · have hread := Primitive.intervalsOverlapping_alike r.user w.start w.stop s.database
        simp only [Database.intervals]
        generalize Primitive.intervalsOverlapping r.user w.start w.stop s.database = out at hread ⊢
        obtain ⟨_ | is, db⟩ := out
        · exact hread.follows
        · exact hread.follows
  | add n =>
    simp only [step, act, add]
    split
    · exact hsame
    · next p _ =>
      obtain ⟨db', hfinish, hlike⟩ := Report.finish_eq p.request.user p.window p.intervals s.clock
        s.database
      simp only [deliver, hfinish]
      exact hlike.follows

/-- A consistent table stays consistent over any events, and its rows only age. -/
theorem run_history (s : System) (events : List Event) (hunique : s.database.ledger.openUnique = true)
    {rows : List Row} (hrows : s.database.ledger.rows = some rows) (hfine : Consistent rows) :
    (s.run events).database.disruption = s.database.disruption ∧
      (s.run events).database.ledger.openUnique = true ∧
      ∃ later, (s.run events).database.ledger.rows = some later ∧ Consistent later ∧
        Grows rows later := by
  induction events generalizing s rows with
  | nil => exact ⟨rfl, hunique, rows, hrows, hfine, .refl rows⟩
  | cons e events ih =>
    have hstep := s.step_follows e
    obtain ⟨hunique', next, hnext, hfine', hgrows⟩ := hstep.touched.history hunique hrows hfine
    obtain ⟨hdisruption, hunique'', later, hlater, hfine'', hgrows'⟩ :=
      ih (s.step e) hunique' hnext hfine'
    exact ⟨hdisruption.trans hstep.disruption, hunique'', later, hlater, hfine'',
      hgrows.trans hgrows'⟩

/-- From an empty table, under any schedule with any arguments, any clock and any foreign errors: ids are
    unique, a key has one open row at most, no row ends before it starts, looking for an open interval
    finds no violation, and from one time to any later one every row stays in its place and changes in
    nothing but an end that was missing. -/
theorem rows_consistent_and_kept {db : Database} (hblank : db.Blank) (hforeign : db.ForeignErrors)
    (clock : Moment) (events later : List Event) :
    ∃ rows rows', ((on db clock).run events).database.ledger.rows = some rows ∧
      ((on db clock).run (events ++ later)).database.ledger.rows = some rows' ∧
      Consistent rows ∧ Grows rows rows' ∧
      ∀ key f what, (Primitive.openInterval key ((on db clock).run events).database).1 =
        .error (.failure f) → f.cause ≠ .violation what := by
  obtain ⟨hdisruption, hunique, rows, hrows, hfine, _⟩ :=
    (on db clock).run_history events hblank.openUnique hblank.rows .nil
  obtain ⟨_, _, rows', hrows', _, hgrows⟩ :=
    ((on db clock).run events).run_history later hunique hrows hfine
  rw [← run_append] at hrows'
  refine ⟨rows, rows', hrows, hrows', hfine, hgrows, fun key f what hopen => ?_⟩
  have hforeign' : ((on db clock).run events).database.ForeignErrors := by
    intro e f he
    refine hforeign e f ?_
    rwa [Database.Raises, hdisruption] at he
  exact Primitive.openInterval_ne_violation hforeign' hrows hfine hopen

/-- A database that cannot be reached the third time. -/
def stumbling : Database :=
  { disruption := fun n _ => if n = 2 then some (.storage ⟨.operational, ⟨none, none⟩⟩) else none }

/-- A start that fails at its commit and another one that does not; then the clock goes back, and a stop
    comes before the start of its row. -/
def mishaps : List Event :=
  let key : KeyRef := ⟨some (.int 1), some (.int 1)⟩
  [.use (.openInterval key), .ask (.start (.ofNat 0xa1) key), .resume 0, .ask (.start (.ofNat 0xa2) key),
    .resume 0, .clock (tick 3), .ask (.stop key), .resume 0, .resume 0]

/-- What is needed to put things right: the clock goes on, and the row is ended. -/
def remedy : List Event :=
  [.clock (tick 9), .ask (.stop ⟨some (.int 1), some (.int 1)⟩), .resume 0, .resume 0]

/-- The mishaps leave a consistent table, and the remedy changes a row of it. -/
theorem rows_kept_after_mishaps :
    stumbling.Blank ∧ stumbling.ForeignErrors ∧
    ∃ rows rows', ((on stumbling (tick 5)).run mishaps).database.ledger.rows = some rows ∧
      ((on stumbling (tick 5)).run (mishaps ++ remedy)).database.ledger.rows = some rows' ∧
      rows ≠ rows' ∧ Consistent rows ∧ Grows rows rows' := by
  have hblank : stumbling.Blank := ⟨rfl, rfl⟩
  have hforeign : stumbling.ForeignErrors := by
    rintro e f ⟨n, verb, he⟩ rfl
    simp only [stumbling] at he
    split at he
    · cases he
    · cases he
  obtain ⟨rows, rows', hrows, hrows', hfine, hgrows, _⟩ :=
    rows_consistent_and_kept hblank hforeign (tick 5) mishaps remedy
  refine ⟨hblank, hforeign, rows, rows', hrows, hrows', ?_, hfine, hgrows⟩
  rintro rfl
  exact absurd (hrows.trans hrows'.symm) (by decide +kernel)

end System
end Worklog
