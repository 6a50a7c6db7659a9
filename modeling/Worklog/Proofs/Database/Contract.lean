import Worklog.Proofs.Database.Calm
import Worklog.Proofs.Database.Rejection
import Worklog.Proofs.Schedule.System

namespace Worklog

theorem Ident.same_self (i : Ident) : i.same i = true := by
  unfold Ident.same
  cases i.ratio? <;> simp

namespace Primitive

/-- The failure of a beginning that a constraint rejects. -/
def beginFailure (key : KeyRef) : Fault :=
  .failure (Failure.storage .constraint "begin_interval" (some (keyContext "begin_interval" key)))

/-- The failure of an ending that a constraint rejects. -/
def closeFailure (id : Uuid) : Fault :=
  .failure (Failure.storage .constraint "close_interval" (some (closeContext id)))

end Primitive

namespace Contract

/-- The beginning of an interval. An answered interval has the times of the new row as instants. -/
structure Begins (rows : List Row) (fresh : Uuid) (key : KeyRef) (started : Moment)
    (answer : Except Fault Begun) (later : List Row) : Prop where
  conflict_iff : answer = .ok (.conflict key) ↔ ∃ r ∈ rows, r.isOpenFor key = true
  kept : answer = .ok (.conflict key) → later = rows
  begun : answer ≠ .ok (.conflict key) → ∃ row i, answer = .ok (.interval i) ∧
    later = rows ++ [row] ∧ row.id = fresh ∧ row.key.ref = key ∧
    (row.started.micros : Int) = started.instant ∧ row.stopped = none ∧ i.same row.interval = true

/-- The ending of the interval with an id. -/
structure Closes (rows : List Row) (id : Uuid) (stopped : Moment) (answer : Except Fault Closed)
    (later : List Row) : Prop where
  notFound_iff : answer = .ok (.notFound id) ↔ ∀ r ∈ rows, ¬ r.isOpenWith id = true
  rejected_iff : answer = .error (Primitive.closeFailure id) ↔
    ∃ r ∈ rows, r.isOpenWith id = true ∧ stopped.instant < r.started.micros
  kept : answer = .ok (.notFound id) ∨ answer = .error (Primitive.closeFailure id) → later = rows
  closed : answer ≠ .ok (.notFound id) → answer ≠ .error (Primitive.closeFailure id) →
    ∃ before r after ended, rows = before ++ r :: after ∧ r.isOpenWith id = true ∧
      (ended.micros : Int) = stopped.instant ∧ later = before ++ r.stoppedAt ended :: after ∧
      answer = .ok (.interval (r.stoppedAt ended).interval)

/-- The row reaches into the time between two moments. -/
def Reaches (start stop : Moment) (r : Row) : Prop :=
  (r.started.micros : Int) < stop.instant ∧
    ∀ ended, r.stopped = some ended → start.instant < (ended.micros : Int)

instance (start stop : Moment) (r : Row) : Decidable (Reaches start stop r) :=
  inferInstanceAs (Decidable (_ ∧ ∀ ended ∈ r.stopped, start.instant < (ended.micros : Int)))

end Contract

theorem Row.reaches_iff {first last : Instant} {start stop : Moment}
    (hfirst : (first.micros : Int) = start.instant) (hlast : (last.micros : Int) = stop.instant)
    (r : Row) : r.reaches first last = true ↔ Contract.Reaches start stop r := by
  rw [reaches, Bool.and_eq_true, decide_eq_true_eq, Contract.Reaches, ← hfirst, ← hlast]
  refine and_congr Int.ofNat_lt.symm ?_
  cases r.stopped <;> simp

namespace Primitive

variable {db : Database} {rows : List Row} {key : KeyRef}

/-- What the rejection of an insertion means for the beginning: of the constraints of the table only the
    index of open intervals makes a conflict. -/
theorem beginAnswer_violates (key : KeyRef) {c : Constraint}
    (hcolumn : ∀ column, c = .present column → column = "user_id" ∨ column = "task_id") :
    beginAnswer key (Rejection.violates c).raised =
      if c = .oneOpen then .ok (.conflict key) else .error (beginFailure key) := by
  cases c with
  | present column =>
    obtain rfl | rfl := hcolumn column rfl
    · rfl
    · rfl
  | stopAfterStart => rfl
  | oneOpen => exact beginAnswer_oneOpen key
  | ownId => rfl
  | taskExists => rfl

/-- A beginning that a constraint rejects changes nothing, and is judged by the constraint. -/
theorem beginInterval_of_violates (hcalm : db.Undisturbed) {prepared : Bool} {fresh : Uuid}
    {started : Moment} {c : Constraint}
    (hreject : Ledger.insertRow prepared fresh key started none db.ledger = .error (.violates c)) :
    ∃ db', beginInterval fresh key started db =
        (if c = .oneOpen then .ok (.conflict key) else .error (beginFailure key), db') ∧
      db.Alike db' := by
  rcases hbegin : beginInterval fresh key started db with ⟨answer, db'⟩
  obtain ⟨hdisruption, ⟨prepared', row, hinsert, _⟩ | ⟨hledger, e, rfl, he⟩⟩ :=
    beginInterval_cases hbegin
  · cases (Ledger.insertRow_of_violates hreject prepared').symm.trans hinsert
  · obtain hraised | ⟨prepared', x, hx, rfl⟩ := he
    · exact absurd hraised (hcalm.not_raises e)
    · cases (Ledger.insertRow_of_violates hreject prepared').symm.trans hx
      refine ⟨db', ?_, hledger, hdisruption⟩
      rw [beginAnswer_violates key fun column hcolumn =>
        Ledger.column_of_insertRow (hcolumn ▸ hreject)]

/-- An open row is not ended before its start. -/
theorem closeInterval_of_early (h : db.Ready rows) {r : Row} (hr : r ∈ rows) (hopen : r.stopped = none)
    {stopped : Moment} {ended : Instant} (hend : Instant.ofMoment stopped = .ok ended)
    (hearly : ended.micros < r.started.micros) :
    ∃ db', closeInterval r.id stopped db = (.error (closeFailure r.id), db') ∧ db.Alike db' := by
  have hreject := Ledger.closeRow_of_early h.stored hend hr (Row.isOpenWith_iff.mpr ⟨rfl, hopen⟩) hearly
  rcases hclose : closeInterval r.id stopped db with ⟨answer, db'⟩
  obtain ⟨hdisruption, ⟨n, row?, _, hended, _⟩ | ⟨hledger, ⟨l, hnone, _⟩ | ⟨e, rfl, he⟩⟩⟩ :=
    closeInterval_cases hclose
  · cases hreject.symm.trans hended
  · cases hreject.symm.trans hnone
  · obtain hraised | ⟨_, x, hx, rfl⟩ := he
    · exact absurd hraised (h.calm.not_raises e)
    · cases hreject.symm.trans hx
      exact ⟨db', rfl, hledger, hdisruption⟩

/-- Beginning an interval keeps the contract. -/
theorem beginInterval_begins (h : db.Ready rows) (hkey : key.fits = true)
    (hadmits : db.ledger.admits key = true) {fresh : Uuid} (hnew : ∀ r ∈ rows, r.id ≠ fresh)
    {started : Moment} (hstart : started.Storable) :
    ∃ answer db' later, beginInterval fresh key started db = (answer, db') ∧
      db'.ledger = { db.ledger with rows := some later } ∧
      Contract.Begins rows fresh key started answer later := by
  by_cases hopen : ∃ r ∈ rows, r.isOpenFor key = true
  · obtain ⟨r, hr, hfor⟩ := hopen
    obtain ⟨db', hbegin, hlike⟩ := beginInterval_of_open h hkey hadmits fresh hstart hr hfor
    refine ⟨_, db', rows, hbegin, ?_, ⟨fun _ => ⟨r, hr, hfor⟩, fun _ => rfl⟩, fun _ => rfl, ?_⟩
    · rw [hlike.ledger, ← h.stored]
    · exact fun hnot => absurd rfl hnot
  · have hfree : ∀ r ∈ rows, ¬ r.isOpenFor key = true := fun r hr hfor => hopen ⟨r, hr, hfor⟩
    obtain ⟨db', row, hbegin, _, hledger, hid, hkeyRef, hstarted, hstopped⟩ :=
      beginInterval_of_free h hkey hadmits hnew hstart hfree
    obtain ⟨haware, hmicros⟩ := Instant.ofMoment_eq_ok_iff.mp hstarted
    refine ⟨_, db', _, hbegin, hledger, ⟨?_, fun hexists => absurd hexists hopen⟩, ?_, fun _ => ?_⟩
    · rintro ⟨⟩
    · rintro ⟨⟩
    refine ⟨row, _, rfl, rfl, hid, hkeyRef, hmicros, hstopped, ?_⟩
    have hsame : started.same row.started.toMoment = true := by
      have haware' : row.started.toMoment.isAware = true := rfl
      rw [Moment.same, Moment.sameKind, haware, haware', Instant.instant_toMoment, hmicros]
      simp
    simp [Interval.same, Row.interval, hid, hstopped, Ident.same_self, hsame]

/-- Ending an interval keeps the contract. -/
theorem closeInterval_closes (h : db.Ready rows) (id : Uuid) {stopped : Moment}
    (hstop : stopped.Storable) :
    ∃ answer db' later, closeInterval id stopped db = (answer, db') ∧
      db'.ledger = { db.ledger with rows := some later } ∧
      Contract.Closes rows id stopped answer later := by
  have hsame : db.ledger = { db.ledger with rows := some rows } := by rw [← h.stored]
  obtain ⟨ended, hend⟩ := Instant.storable_iff.mp hstop
  have hmicros := (Instant.ofMoment_eq_ok_iff.mp hend).2
  by_cases hexists : ∃ r ∈ rows, r.isOpenWith id = true
  · obtain ⟨r, hr, hopen⟩ := hexists
    obtain ⟨rfl, hstopped⟩ := Row.isOpenWith_iff.mp hopen
    have hfound : ¬ ∀ x ∈ rows, ¬ x.isOpenWith r.id = true := fun hnone => hnone r hr hopen
    by_cases hearly : ended.micros < r.started.micros
    · obtain ⟨db', hclose, hlike⟩ := closeInterval_of_early h hr hstopped hend hearly
      have hlt : stopped.instant < r.started.micros := hmicros ▸ Int.ofNat_lt.mpr hearly
      refine ⟨_, db', rows, hclose, hlike.ledger.trans hsame,
        ⟨?_, fun hnone => absurd hnone hfound⟩, ⟨fun _ => ⟨r, hr, hopen, hlt⟩, fun _ => rfl⟩,
        fun _ => rfl, fun _ hnot => absurd rfl hnot⟩
      rintro ⟨⟩
    · obtain ⟨db', hclose, _, hledger⟩ :=
        closeInterval_of_open h hr hstopped hend (Nat.le_of_not_lt hearly)
      obtain ⟨before, after, hsplit⟩ := List.append_of_mem hr
      have hlater := h.consistent.map_closing hsplit ended
      rw [Row.closing, if_pos hopen] at hlater
      refine ⟨_, db', _, hclose, hledger, ⟨?_, fun hnone => absurd hnone hfound⟩, ⟨?_, ?_⟩, ?_,
        fun _ _ => ⟨before, r, after, ended, hsplit, hopen, hmicros, hlater, rfl⟩⟩
      · rintro ⟨⟩
      · rintro ⟨⟩
      · rintro ⟨x, hx, hxOpen, hlt⟩
        obtain rfl := h.consistent.eq_of_isOpenWith hx hr hxOpen
        rw [← hmicros] at hlt
        exact absurd (Int.ofNat_lt.mp hlt) hearly
      · rintro (hnone | hfailed)
        · cases hnone
        · cases hfailed
  · have hclosed : ∀ r ∈ rows, ¬ r.isOpenWith id = true := fun r hr hopen => hexists ⟨r, hr, hopen⟩
    obtain ⟨db', hclose, hlike⟩ := closeInterval_of_closed h hclosed hstop
    refine ⟨_, db', rows, hclose, hlike.ledger.trans hsame, ⟨fun _ => hclosed, fun _ => rfl⟩, ⟨?_, ?_⟩,
      fun _ => rfl, fun hnot => absurd rfl hnot⟩
    · rintro ⟨⟩
    · rintro ⟨r, hr, hopen, _⟩
      exact absurd hopen (hclosed r hr)

/-- Looking for the open interval of a key answers the open row of the key, if there is one. -/
theorem openInterval_answers (h : db.Ready rows) (hkey : key.fits = true) :
    ∃ answer db', openInterval key db = (.ok answer, db') ∧ db'.ledger = db.ledger ∧
      ∀ i, answer = some i ↔ ∃ r ∈ rows, r.isOpenFor key = true ∧ i = r.interval := by
  obtain ⟨db', hopen, hlike⟩ := openInterval_of_fits h hkey
  obtain hnone | ⟨r, hr, hfor, hone⟩ := h.consistent.filter_open key
  · rw [hnone] at hopen
    refine ⟨none, db', hopen, hlike.ledger, fun i => ⟨?_, ?_⟩⟩
    · rintro ⟨⟩
    · rintro ⟨r, hr, hfor, _⟩
      exact absurd hfor (List.filter_eq_nil_iff.mp hnone r hr)
  · rw [hone] at hopen
    refine ⟨some r.interval, db', hopen, hlike.ledger, fun i => ⟨?_, ?_⟩⟩
    · rintro ⟨⟩
      exact ⟨r, hr, hfor, rfl⟩
    · rintro ⟨x, hx, hxFor, rfl⟩
      rw [h.consistent.eq_of_isOpenFor hr hx hfor hxFor]

end Primitive

/-- On a consistent table the database keeps the contract of a store, for keys and users of 64 bits and
    storable moments: beginnings of intervals of tasks that can be referred to, endings, both reads, which
    change nothing and answer every row that is asked for once, and beginnings that a constraint
    rejects, whatever their arguments. -/
theorem Database.Ready.keeps_contract {db : Database} {rows : List Row} (h : db.Ready rows) :
    (∀ key fresh started, key.fits = true → db.ledger.admits key = true →
      (∀ r ∈ rows, r.id ≠ fresh) → started.Storable →
      ∃ answer db' later, Database.intervals.beginInterval fresh key started db = (answer, db') ∧
        db'.ledger = { db.ledger with rows := some later } ∧
        Contract.Begins rows fresh key started answer later) ∧
    (∀ id stopped, stopped.Storable →
      ∃ answer db' later, Database.intervals.closeInterval id stopped db = (answer, db') ∧
        db'.ledger = { db.ledger with rows := some later } ∧
        Contract.Closes rows id stopped answer later) ∧
    (∀ key, key.fits = true →
      ∃ answer db', Database.intervals.openInterval key db = (.ok answer, db') ∧
        db'.ledger = db.ledger ∧
        ∀ i, answer = some i ↔ ∃ r ∈ rows, r.isOpenFor key = true ∧ i = r.interval) ∧
    (∀ (user : Int) start stop, Integer.fits64 user = true → start.Storable → stop.Storable →
      ∃ is db', Database.intervals.intervalsOverlapping (some (.int user)) start stop db =
          (.ok is, db') ∧
        db'.ledger = db.ledger ∧
        is.Perm ((rows.filter fun r => r.user = .int user ∧ Contract.Reaches start stop r).map
          Row.interval)) ∧
    ∀ key fresh started prepared c,
      Ledger.insertRow prepared fresh key started none db.ledger = .error (.violates c) →
      ∃ db', Database.intervals.beginInterval fresh key started db =
          (if c = .oneOpen then .ok (.conflict key) else .error (Primitive.beginFailure key), db') ∧
        db'.ledger = db.ledger := by
  refine ⟨?_, ?_, ?_, ?_, ?_⟩
  · intro key fresh started hkey hadmits hnew hstart
    exact Primitive.beginInterval_begins h hkey hadmits hnew hstart
  · intro id stopped hstop
    exact Primitive.closeInterval_closes h id hstop
  · intro key hkey
    exact Primitive.openInterval_answers h hkey
  · intro user start stop huser hstart hstop
    obtain ⟨first, hfirst⟩ := Instant.storable_iff.mp hstart
    obtain ⟨last, hlast⟩ := Instant.storable_iff.mp hstop
    obtain ⟨db', hread, hlike⟩ := Primitive.intervalsOverlapping_of_fits h huser hfirst hlast
    refine ⟨_, db', hread, hlike.ledger, ?_⟩
    have hfilter : (rows.filter fun r => r.ofUser (some (.int user)) && r.reaches first last) =
        rows.filter fun r => r.user = .int user ∧ Contract.Reaches start stop r := by
      refine List.filter_congr fun r _ => ?_
      rw [Bool.eq_iff_iff, Bool.and_eq_true, decide_eq_true_eq, Row.reaches_iff
        (Instant.ofMoment_eq_ok_iff.mp hfirst).2 (Instant.ofMoment_eq_ok_iff.mp hlast).2,
        Row.ofUser, beq_iff_eq, Option.some.injEq, eq_comm]
    rw [← hfilter]
    exact (List.mergeSort_perm _ _).map _
  · intro key fresh started prepared c hreject
    obtain ⟨db', hbegin, hlike⟩ := Primitive.beginInterval_of_violates h.calm hreject
    exact ⟨db', hbegin, hlike.ledger⟩

/-- A closed interval and then an open one of a key, and an open one of another user. -/
def booked : List Row :=
  [⟨.ofNat 0xa1, .int 1, .int 7, beat 2, some (beat 5)⟩,
    ⟨.ofNat 0xa2, .int 1, .int 7, beat 6, none⟩,
    ⟨.ofNat 0xa3, .int 2, .int 7, beat 1, none⟩]

/-- The table has one task, and references to tasks are enforced. The second beginning names another
    task. The first ending is of an interval that is closed and starts later, the second one of an open
    interval that starts later. -/
theorem Database.booked_answers :
    let db : Database :=
      { ledger := { tasks := some [⟨7, "review"⟩], rows := some booked, foreignKeys := true } }
    let first : KeyRef := ⟨some (.int 1), some (.int 7)⟩
    let absent : KeyRef := ⟨some (.int 1), some (.int 8)⟩
    (Database.intervals.beginInterval (.ofNat 0xa4) first (tick 8) db).1 = .ok (.conflict first) ∧
    (Database.intervals.beginInterval (.ofNat 0xa4) absent (tick 8) db).1 =
      .error (Primitive.beginFailure absent) ∧
    (Database.intervals.closeInterval (.ofNat 0xa1) (tick 1) db).1 = .ok (.notFound (.ofNat 0xa1)) ∧
    (Database.intervals.closeInterval (.ofNat 0xa2) (tick 1) db).1 =
      .error (Primitive.closeFailure (.ofNat 0xa2)) ∧
    (∃ i, (Database.intervals.openInterval first db).1 = .ok (some i) ∧ i.id = .ofNat 0xa2) ∧
    ∃ i, (Database.intervals.intervalsOverlapping (some (.int 1)) (tick 4) (tick 6) db).1 = .ok [i] ∧
      i.id = .ofNat 0xa1 := by
  intro db first absent
  have hready : db.Ready booked := ⟨fun _ _ => rfl, rfl, rfl, ⟨by decide, by decide, by decide⟩⟩
  obtain ⟨hbegin, hclose, hopen, hread, hreject⟩ := hready.keeps_contract
  refine ⟨?_, ?_, ?_, ?_, ?_, ?_⟩
  · obtain ⟨answer, _, _, hanswer, _, hbegins⟩ :=
      hbegin first (.ofNat 0xa4) (tick 8) (by decide) (by decide) (by decide) (by decide)
    rw [hanswer]
    exact hbegins.conflict_iff.mpr (by decide)
  · obtain ⟨_, hanswer, _⟩ := hreject absent (.ofNat 0xa4) (tick 8) false .taskExists rfl
    rw [hanswer]
    rfl
  · obtain ⟨answer, _, _, hanswer, _, hcloses⟩ := hclose (.ofNat 0xa1) (tick 1) (by decide)
    rw [hanswer]
    exact hcloses.notFound_iff.mpr (by decide)
  · obtain ⟨answer, _, _, hanswer, _, hcloses⟩ := hclose (.ofNat 0xa2) (tick 1) (by decide)
    rw [hanswer]
    exact hcloses.rejected_iff.mpr (by decide)
  · obtain ⟨answer, _, hanswer, _, hfor⟩ := hopen first (by decide)
    rw [hanswer]
    exact ⟨_, congrArg _ ((hfor _).mpr ⟨_, List.mem_cons_of_mem _ List.mem_cons_self, by decide, rfl⟩), rfl⟩
  · obtain ⟨is, _, hanswer, _, hperm⟩ := hread 1 (tick 4) (tick 6) (by decide) (by decide) (by decide)
    rw [hanswer]
    exact ⟨_, congrArg _ (List.perm_singleton.mp hperm), rfl⟩

end Worklog
