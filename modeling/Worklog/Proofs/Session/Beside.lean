import Worklog.Proofs.Database.Beside
import Worklog.Proofs.Session.Calls

namespace Worklog

open Run

variable {mine : Key → Bool} {a a' b b' db db' : Database} {rows rows' : List Row} {user task : Int}

/-- An error leaves the scope of an ending with the id of the interval, and is the same error apart from
    it. -/
theorem Raised.unnamed_settle (e : Raised) (id id' : Uuid) :
    (e.settle (some (Primitive.closeContext id))).unnamed =
      (e.settle (some (Primitive.closeContext id'))).unnamed := by
  have hdebug (id : Uuid) : Json.unnamed (.obj [("interval_id", .str id.text)]) =
      .obj [("interval_id", .null)] := by simp only [Json.unnamed, List.map_cons, List.map_nil, if_true]
  cases e with
  | fault f => simp only [Raised.settle]
  | storage e =>
    simp only [Raised.settle, Failure.storage, Failure.namedOperation, Primitive.closeContext, Fault.unnamed,
      Failure.unnamed, Option.map_some, Option.getD_some, hdebug]

namespace Session

/-- A start is an insertion, as far as it comes. -/
theorem start_tries {key : KeyRef} {fresh : Uuid} {now : Moment} {r : Except Fault Interval}
    (h : start Database.intervals fresh now key db = (r, db')) :
    match db.tryInsert fresh key now with
    | .error e => r = startAnswer key (Primitive.beginAnswer key e) ∧ db'.ledger = db.ledger
    | .ok (row, l) =>
      r = .ok ⟨fresh, key.user.getD row.user, key.task.getD row.task, now, none⟩ ∧ db'.ledger = l := by
  obtain ⟨begun, db₁, hbegin, hlike, rfl⟩ := start_cases h
  rw [hlike.ledger]
  obtain ⟨e, hinsert, rfl, hledger⟩ | ⟨row, hinsert, rfl⟩ := Primitive.beginInterval_eq hbegin
  · rw [hinsert]
    exact ⟨rfl, hledger⟩
  · rw [hinsert]
    exact ⟨rfl, rfl⟩

/-- The last step of a stop is the ending of the row that was found, as far as it comes. -/
theorem finish_tries {key : KeyRef} {row : Row} {now : Moment} {r : Except Fault Interval}
    (h : finish Database.intervals key (some row.interval) now db = (r, db')) :
    match db.tryClose row.id now with
    | .error e => r = .error ((e.settle (some (Primitive.closeContext row.id))).withKey key.user key.task) ∧
        db'.ledger = db.ledger
    | .ok (row?, l) =>
      r = row?.elim (.error (notStarted key)) (fun row => .ok row.interval) ∧ db'.ledger = l := by
  obtain ⟨closed, db₁, hclose, hlike, rfl⟩ := finish_cases h
  rw [hlike.ledger]
  obtain ⟨e, htry, rfl, hledger⟩ | ⟨row?, htry, rfl⟩ := Primitive.closeInterval_eq hclose
  · change db.tryClose row.id now = _ at htry
    rw [htry]
    exact ⟨rfl, hledger⟩
  · change db.tryClose row.id now = _ at htry
    rw [htry]
    cases row? <;> exact ⟨rfl, rfl⟩

/-- A stop on a consistent table fails to look for its interval, finds none, or goes on with the one that it
    found. -/
theorem stop_tries (h : db.ledger.Whole rows) {now : Moment} {r : Except Fault Interval}
    (hstop : stop Database.intervals now (Key.ints user task).ref db = (r, db')) :
    match db.tryOpen (Key.ints user task).ref with
    | .error e => db'.ledger = db.ledger ∧
        r = .error ((e.settle (some (Primitive.keyContext "open_interval" (Key.ints user task).ref))).withKey
          (some (.int user)) (some (.int task)))
    | .ok [] => db'.ledger = db.ledger ∧ r = .error (notStarted (Key.ints user task).ref)
    | .ok (row :: _) => row ∈ rows ∧ row.isOpenFor (Key.ints user task).ref = true ∧
        ∃ mid : Database, mid.ledger = db.ledger ∧ (∀ k verb, mid.hit k verb = db.hit (1 + k) verb) ∧
          finish Database.intervals (Key.ints user task).ref (some row.interval) now mid = (r, db') := by
  rcases hlook : Primitive.openInterval (Key.ints user task).ref db with ⟨found, mid⟩
  obtain ⟨hfound, hlike, haccesses⟩ := Primitive.openInterval_eq hlook
  have hfind := find_eq (Key.ints user task).ref db
  rw [hlook, hfound] at hfind
  have hhit (k : Nat) (verb : Verb) : mid.hit k verb = db.hit (1 + k) verb :=
    Database.hit_of_accesses hlike.disruption haccesses k verb
  cases hopen : db.tryOpen (Key.ints user task).ref with
  | error e =>
    rw [hopen] at hfind
    cases (bind_of_error hfind).symm.trans hstop
    exact ⟨hlike.ledger, rfl⟩
  | ok opened =>
    obtain rfl := Database.tryOpen_eq_ok h hopen
    rw [hopen] at hfind
    -- The index of open intervals leaves no third case.
    obtain hnone | ⟨row, hrow, hfor, hone⟩ := h.consistent.filter_open (Key.ints user task).ref
    · rw [hnone] at hfind ⊢
      obtain ⟨_, hrefuse, hnoted⟩ := refuseStop_eq (Key.ints user task).ref now mid
      cases hrefuse.symm.trans ((bind_of_ok hfind).symm.trans hstop)
      exact ⟨(hlike.trans hnoted).ledger, rfl⟩
    · rw [hone] at hfind ⊢
      exact ⟨hrow, hfor, mid, hlike.ledger, hhit, (bind_of_ok hfind).symm.trans hstop⟩

/-- A start leaves the ledger as it is or inserts an interval. -/
theorem ledger_after_start {key : KeyRef} {fresh : Uuid} {now : Moment} {r : Except Fault Interval}
    (h : start Database.intervals fresh now key db = (r, db')) :
    db'.ledger = db.ledger ∨
      ∃ prepared row, Ledger.insertRow prepared fresh key now none db.ledger = .ok (row, db'.ledger) := by
  have hr := start_tries h
  cases htry : db.tryInsert fresh key now with
  | error e =>
    rw [htry] at hr
    exact .inl hr.2
  | ok inserted =>
    rw [htry] at hr
    rw [hr.2]
    exact .inr ⟨_, inserted.1, Database.insertRow_of_tryInsert htry⟩

/-- A stop leaves the ledger as it is or ends an interval. -/
theorem ledger_after_stop (h : db.ledger.Whole rows) {now : Moment} {r : Except Fault Interval}
    (hstop : stop Database.intervals now (Key.ints user task).ref db = (r, db')) :
    db'.ledger = db.ledger ∨ ∃ id n, Ledger.closeRow id now db.ledger = .ok (n, db'.ledger) := by
  have hr := stop_tries h hstop
  cases hopen : db.tryOpen (Key.ints user task).ref with
  | error e =>
    rw [hopen] at hr
    exact .inl hr.1
  | ok opened =>
    rw [hopen] at hr
    cases opened with
    | nil => exact .inl hr.1
    | cons row rest =>
      obtain ⟨_, _, mid, hmid, _, hfinish⟩ := hr
      have hr := finish_tries hfinish
      rw [← hmid]
      cases htry : mid.tryClose row.id now with
      | error e =>
        rw [htry] at hr
        exact .inl hr.2
      | ok ended =>
        rw [htry] at hr
        rw [hr.2]
        exact (Database.tryClose_eq_ok htry).imp_right fun ⟨n, hclose⟩ => ⟨row.id, n, hclose⟩

/-- A start ends alike on two databases with the same intervals of its key. -/
theorem start_beside (h : a.ledger.Beside mine b.ledger rows rows')
    (hhit : ∀ k verb, b.hit k verb = a.hit k verb) (hmine : mine (.ints user task) = true)
    {fresh fresh' : Uuid} (hnew : ∀ r ∈ rows, r.id ≠ fresh) (hnew' : ∀ r ∈ rows', r.id ≠ fresh')
    (now : Moment) {r r' : Except Fault Interval}
    (ha : start Database.intervals fresh now (Key.ints user task).ref a = (r, a'))
    (hb : start Database.intervals fresh' now (Key.ints user task).ref b = (r', b')) :
    unnamedAnswer Interval.unnamed r' = unnamedAnswer Interval.unnamed r ∧
      ∃ later later', a'.ledger.Beside mine b'.ledger later later' := by
  have hr := start_tries ha
  have hr' := start_tries hb
  obtain ⟨e, htry, htry'⟩ | ⟨⟨row, l⟩, ⟨row', l'⟩, htry, htry', hsame⟩ :=
    (Database.tryInsert_matches h hhit hmine hnew hnew' now).elim
  · rw [htry] at hr
    rw [htry'] at hr'
    obtain ⟨rfl, hledger⟩ := hr
    obtain ⟨rfl, hledger'⟩ := hr'
    rw [hledger, hledger']
    exact ⟨rfl, rows, rows', h⟩
  · rw [htry] at hr
    rw [htry'] at hr'
    obtain ⟨rfl, rfl⟩ := hr
    obtain ⟨rfl, rfl⟩ := hr'
    obtain ⟨hkey, htouched, hwhole⟩ := Database.tryInsert_eq_ok h.left htry
    obtain ⟨hkey', htouched', hwhole'⟩ := Database.tryInsert_eq_ok h.right htry'
    refine ⟨rfl, _, _, h.both htouched htouched' hwhole hwhole' ?_⟩
    have hunnamed : row.unnamed = row'.unnamed := hsame
    rw [Row.share_append, Row.share_append, h.share, hkey, hkey', hmine, hunnamed]

/-- Two stops that have found the same open interval end alike. -/
theorem finish_beside (h : a.ledger.Beside mine b.ledger rows rows')
    (hhit : ∀ k verb, b.hit k verb = a.hit k verb) {key : Key} {row row' : Row} (hrow : row ∈ rows)
    (hrow' : row' ∈ rows') (hfor : row.isOpenFor key.ref = true) (hsame : row.unnamed = row'.unnamed)
    {now : Moment} {r r' : Except Fault Interval}
    (ha : finish Database.intervals key.ref (some row.interval) now a = (r, a'))
    (hb : finish Database.intervals key.ref (some row'.interval) now b = (r', b')) :
    unnamedAnswer Interval.unnamed r' = unnamedAnswer Interval.unnamed r ∧
      ∃ later later', a'.ledger.Beside mine b'.ledger later later' := by
  have hr := finish_tries ha
  have hr' := finish_tries hb
  obtain ⟨e, htry, htry'⟩ | ⟨⟨row?, l⟩, ⟨row?', l'⟩, htry, htry', hended, ended, hlater, hlater'⟩ :=
    (Database.tryClose_matches h hhit hrow hrow' hfor hsame now).elim
  · rw [htry] at hr
    rw [htry'] at hr'
    obtain ⟨rfl, hledger⟩ := hr
    obtain ⟨rfl, hledger'⟩ := hr'
    rw [hledger, hledger']
    refine ⟨congrArg Except.error ?_, rows, rows', h⟩
    rw [Fault.unnamed_withKey, Fault.unnamed_withKey, e.unnamed_settle row'.id row.id]
  · rw [htry] at hr
    rw [htry'] at hr'
    obtain ⟨rfl, rfl⟩ := hr
    obtain ⟨rfl, rfl⟩ := hr'
    have htouched := Database.touched_of_tryClose htry
    have htouched' := Database.touched_of_tryClose htry'
    refine ⟨?_, _, _, h.both htouched htouched' (h.left.touched htouched hlater)
      (h.right.touched htouched' hlater') ?_⟩
    · cases row? with
      | none =>
        obtain rfl : row?' = none := Option.map_eq_none_iff.mp hended.symm
        rfl
      | some row =>
        obtain ⟨row', rfl, hsame⟩ := Option.map_eq_some_iff.mp hended.symm
        exact congrArg (fun r : Row => Except.ok r.interval) hsame
    · rw [Row.share_endingFor, Row.share_endingFor, h.share]

/-- A stop ends alike on two databases with the same intervals of its key. -/
theorem stop_beside (h : a.ledger.Beside mine b.ledger rows rows')
    (hhit : ∀ k verb, b.hit k verb = a.hit k verb) (hmine : mine (.ints user task) = true)
    (now : Moment) {r r' : Except Fault Interval}
    (ha : stop Database.intervals now (Key.ints user task).ref a = (r, a'))
    (hb : stop Database.intervals now (Key.ints user task).ref b = (r', b')) :
    unnamedAnswer Interval.unnamed r' = unnamedAnswer Interval.unnamed r ∧
      ∃ later later', a'.ledger.Beside mine b'.ledger later later' := by
  have hr := stop_tries h.left ha
  have hr' := stop_tries h.right hb
  obtain ⟨e, htry, htry'⟩ | ⟨opened, opened', htry, htry', hsame⟩ :=
    (Database.tryOpen_matches h hhit hmine).elim
  · rw [htry] at hr
    rw [htry'] at hr'
    obtain ⟨hledger, rfl⟩ := hr
    obtain ⟨hledger', rfl⟩ := hr'
    rw [hledger, hledger']
    exact ⟨rfl, rows, rows', h⟩
  · rw [htry] at hr
    rw [htry'] at hr'
    cases opened with
    | nil =>
      obtain rfl : opened' = [] := List.map_eq_nil_iff.mp hsame.symm
      obtain ⟨hledger, rfl⟩ := hr
      obtain ⟨hledger', rfl⟩ := hr'
      rw [hledger, hledger']
      exact ⟨rfl, rows, rows', h⟩
    | cons row rest =>
      cases opened' with
      | nil => cases hsame
      | cons row' rest' =>
        obtain ⟨hrow, hfor, mid, hmid, hhitMid, hfinish⟩ := hr
        obtain ⟨hrow', _, mid', hmid', hhitMid', hfinish'⟩ := hr'
        -- The two may have found rows with different ids, and end those.
        have hboth : mid.ledger.Beside mine mid'.ledger rows rows' := by rwa [hmid, hmid']
        refine finish_beside hboth (fun k verb => ?_) hrow hrow' hfor (List.cons.inj hsame).1 hfinish hfinish'
        rw [hhitMid, hhitMid', hhit]

/-- A start leaves the intervals of all other keys as they are. -/
theorem start_aside (h : a.ledger.Beside mine b.ledger rows rows') (hmine : mine (.ints user task) = false)
    (fresh : Uuid) (now : Moment) {r : Except Fault Interval}
    (ha : start Database.intervals fresh now (Key.ints user task).ref a = (r, a')) :
    ∃ later, a'.ledger.Beside mine b.ledger later rows' := by
  have hr := start_tries ha
  cases htry : a.tryInsert fresh (Key.ints user task).ref now with
  | error e =>
    rw [htry] at hr
    rw [hr.2]
    exact ⟨rows, h⟩
  | ok inserted =>
    rw [htry] at hr
    obtain ⟨hkey, htouched, hwhole⟩ := Database.tryInsert_eq_ok h.left htry
    rw [hr.2]
    refine ⟨_, h.touched htouched hwhole ?_⟩
    rw [Row.share_append, hkey, hmine]
    exact List.append_nil _

theorem stop_aside (h : a.ledger.Beside mine b.ledger rows rows') (hmine : mine (.ints user task) = false)
    (now : Moment) {r : Except Fault Interval}
    (ha : stop Database.intervals now (Key.ints user task).ref a = (r, a')) :
    ∃ later, a'.ledger.Beside mine b.ledger later rows' := by
  have hr := stop_tries h.left ha
  cases htry : a.tryOpen (Key.ints user task).ref with
  | error e =>
    rw [htry] at hr
    rw [hr.1]
    exact ⟨rows, h⟩
  | ok opened =>
    rw [htry] at hr
    cases opened with
    | nil =>
      rw [hr.1]
      exact ⟨rows, h⟩
    | cons row rest =>
      obtain ⟨hrow, hfor, mid, hmid, _, hfinish⟩ := hr
      have hr := finish_tries hfinish
      cases hclose : mid.tryClose row.id now with
      | error e =>
        rw [hclose] at hr
        rw [hr.2, hmid]
        exact ⟨rows, h⟩
      | ok ended =>
        rw [hclose] at hr
        have htouched := Database.touched_of_tryClose hclose
        obtain ⟨e, hlater⟩ := Database.rows_of_tryClose (hmid ▸ h.left) hrow hfor hclose
        rw [hmid] at htouched
        rw [hr.2]
        refine ⟨_, h.touched htouched (h.left.touched htouched hlater) ?_⟩
        exact Row.share_endingFor_other hmine e rows

end Session

namespace Report

/-- What a report answers: its window is refused or empty, or its rows are read and added up. -/
theorem run_eq (now : Moment) (user : Option Ident) (first last : Moment) (db : Database) :
    (run Database.intervals now user first last db).1 = (do
      let w ← Window.check first last
      if w.isEmpty then return []
      else
        let rows ← (db.tryOverlapping user w.start w.stop).mapError
          (Raised.settle (some { user, operation := some "intervals_overlapping" }))
        aggregate (rows.map Row.interval) w now) := by
  unfold run
  cases Window.check first last with
  | error f => rfl
  | ok w =>
    change ((if w.isEmpty then _ else _ : Run Fault Database _) db).1 = if w.isEmpty then _ else _
    by_cases hempty : w.isEmpty = true
    · rw [if_pos hempty, if_pos hempty]
      rfl
    · rw [if_neg hempty, if_neg hempty]
      have hread := Primitive.intervalsOverlapping_eq user w.start w.stop db
      rcases hover : Primitive.intervalsOverlapping user w.start w.stop db with ⟨r, db₁⟩
      rw [hover] at hread
      cases htry : db.tryOverlapping user w.start w.stop with
      | error e =>
        rw [htry] at hread
        obtain rfl := hread
        exact congrArg Prod.fst (bind_of_error hover)
      | ok rows =>
        rw [htry] at hread
        obtain rfl := hread
        obtain ⟨_, hfinish, _⟩ := finish_eq user w (rows.map Row.interval) now db₁
        exact congrArg Prod.fst
          ((bind_of_ok (f := fun is => finish Database.intervals user w is now) hover).trans hfinish)

/-- The reports of a user are the same on two databases with the same intervals of the user. -/
theorem run_beside (h : a.ledger.Beside mine b.ledger rows rows')
    (hhit : ∀ k verb, b.hit k verb = a.hit k verb) (hmine : ∀ task, mine ⟨.int user, task⟩ = true)
    (now first last : Moment) :
    (run Database.intervals now (some (.int user)) first last b).1.mapError Fault.unnamed =
      (run Database.intervals now (some (.int user)) first last a).1.mapError Fault.unnamed := by
  rw [run_eq, run_eq]
  refine mapError_bind_congr rfl fun w => ?_
  by_cases hempty : w.isEmpty = true
  · rw [if_pos hempty, if_pos hempty]
  · rw [if_neg hempty, if_neg hempty]
    obtain ⟨e, htry, htry'⟩ | ⟨found, found', htry, htry', hsame⟩ :=
      (Database.tryOverlapping_matches h hhit hmine w.start w.stop).elim
    · rw [htry, htry']
    · rw [htry, htry']
      refine aggregate_congr w now ?_
      have hmap (rows : List Row) : (rows.map Row.interval).map Interval.unnamed =
          (rows.map Row.unnamed).map Row.interval := by
        simp only [List.map_map, Function.comp_def, Row.unnamed_interval]
      rw [hmap, hmap, hsame]

end Report
end Worklog
