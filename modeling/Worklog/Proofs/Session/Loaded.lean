import Worklog.Proofs.Database.History
import Worklog.Proofs.Http.Operation

namespace Worklog

/-- The times of an interval are universal. -/
def Interval.InUtc (i : Interval) : Prop :=
  i.started.offset = some .utc ∧ ∀ ended, i.stopped = some ended → ended.offset = some .utc

theorem Row.interval_inUtc (r : Row) : r.interval.InUtc := by
  refine ⟨rfl, fun ended hended => ?_⟩
  obtain ⟨instant, _, rfl⟩ := Option.map_eq_some_iff.mp hended
  rfl

/-- A moment is stored as it is when its offset says universal time. -/
theorem Instant.toMoment_eq_iff {m : Moment} {i : Instant} (h : Instant.ofMoment m = .ok i) :
    i.toMoment = m ↔ m.offset = some .utc := by
  have hmicros := (Instant.ofMoment_eq_ok_iff.mp h).2
  constructor
  · rintro rfl
    rfl
  · intro hutc
    obtain ⟨wall, offset, hwall⟩ := m
    obtain rfl : offset = some .utc := hutc
    have hsame : (i.micros : Int) = wall := by
      simpa [Moment.instant, Moment.offsetMicros, Offset.utc] using hmicros
    simp only [Instant.toMoment, Moment.mk.injEq, and_true]
    omega

/-- The row is stored. -/
def Ledger.Holds (l : Ledger) (row : Row) : Prop := ∃ rows, l.rows = some rows ∧ row ∈ rows

namespace Primitive

variable {key : KeyRef} {fresh id : Uuid} {db db' : Database} {i : Interval}

/-- An interval that is shown as it was begun, beside its row. -/
structure BegunAs (key : KeyRef) (m : Moment) (i : Interval) (row : Row) : Prop where
  id : row.id = i.id
  ref : row.key.ref = key.stored
  key : i.key.ref = key
  bound : Instant.ofMoment m = .ok row.started
  started : i.started = m
  stored_open : row.stopped = none
  shown_open : i.stopped = none

theorem holds_of_beginInterval {m : Moment}
    (h : beginInterval fresh key m db = (.ok (.interval i), db')) :
    ∃ row, db'.ledger.Holds row ∧ BegunAs key m i row := by
  obtain ⟨_, ⟨prepared, row, hinsert, hr⟩ | ⟨_, e, hr, _⟩⟩ := beginInterval_cases h
  · have href := Ledger.ref_of_insertRow hinsert
    obtain ⟨rows, _, hledger, hid, hbound, hopen, _⟩ := Ledger.insertRow_eq_ok hinsert
    have hstopped : row.stopped = none := (Except.ok.inj hopen).symm
    cases hr
    refine ⟨row, ⟨rows ++ [row], by rw [hledger], by simp⟩,
      ⟨hid, href, ?_, hbound, rfl, hstopped, rfl⟩⟩
    -- Neither part of a key that was stored can have been missing.
    obtain ⟨user, task⟩ := key
    obtain ⟨huser, htask⟩ := KeyRef.mk.inj href
    cases user with
    | none => cases huser
    | some user =>
      cases task with
      | none => cases htask
      | some task => rfl
  · cases e with
    | fault f => cases hr
    | storage e =>
      unfold beginAnswer at hr
      dsimp only at hr
      split at hr <;> cases hr

theorem holds_of_closeInterval {m : Moment}
    (h : closeInterval id m db = (.ok (.interval i), db')) :
    ∃ row, db'.ledger.Holds row ∧ i = row.interval := by
  obtain ⟨_, ⟨n, row?, _, hclose, hfind, hr⟩ | ⟨_, ⟨_, _, hr⟩ | ⟨_, hr, _⟩⟩⟩ := closeInterval_cases h
  · obtain ⟨rows, ended, _, _, _, _, hledger⟩ := Ledger.closeRow_eq_ok hclose
    rw [hledger, Ledger.findRow_eq_ok rfl] at hfind
    cases hfind
    cases hfound : (rows.map (Row.closing id ended)).find? (·.id = id) with
    | none =>
      rw [hfound] at hr
      cases hr
    | some row =>
      rw [hfound] at hr
      cases hr
      exact ⟨row, ⟨_, by rw [hledger], List.mem_of_find?_eq_some hfound⟩, rfl⟩
  · cases hr
  · cases hr

theorem holds_of_openInterval (h : openInterval key db = (.ok (some i), db')) :
    ∃ row, db.ledger.Holds row ∧ i = row.interval := by
  obtain ⟨_, ⟨prepared, opened, hopened, hr⟩ | ⟨_, hr, _⟩⟩ := openInterval_cases h
  · obtain ⟨rows, key', hrows, rfl⟩ := Ledger.openRows_eq_ok hopened
    match hfilter : rows.filter (Row.isOpenFor key') with
    | [] =>
      rw [hfilter] at hr
      cases hr
    | [row] =>
      rw [hfilter] at hr
      cases hr
      have hmem : row ∈ rows.filter (Row.isOpenFor key') := by simp [hfilter]
      exact ⟨row, ⟨rows, hrows, (List.mem_filter.mp hmem).1⟩, rfl⟩
    | _ :: _ :: _ =>
      rw [hfilter] at hr
      cases hr
  · cases hr

theorem holds_of_intervalsOverlapping {user : Option Ident} {first last : Moment}
    {is : List Interval} (h : intervalsOverlapping user first last db = (.ok is, db')) (hi : i ∈ is) :
    ∃ row, db.ledger.Holds row ∧ i = row.interval := by
  obtain ⟨_, ⟨prepared, found, hfound, hr⟩ | ⟨_, hr, _⟩⟩ := intervalsOverlapping_cases h
  · cases hr
    obtain ⟨row, hrow, rfl⟩ := List.mem_map.mp hi
    simp only [Ledger.overlappingRows, except_bind_eq_ok_iff] at hfound
    obtain ⟨_, _, _, _, ⟨rows, _⟩, hprepare, hfound⟩ := hfound
    cases hfound
    have hrows := Ledger.rowTable_eq_ok_iff.mp (Ledger.prepare_eq_ok_iff.mp hprepare).1
    exact ⟨row, ⟨rows, hrows, (List.mem_filter.mp (List.mem_mergeSort.mp hrow)).1⟩, rfl⟩
  · cases hr

end Primitive

/-- The intervals that the beginning of one answers. -/
def Begun.intervals : Begun → List Interval
  | interval i => [i]
  | conflict _ => []

/-- The intervals that the ending of one answers. -/
def Closed.intervals : Closed → List Interval
  | interval i => [i]
  | notFound _ => []

namespace Operation

open Primitive

/-- The intervals in the answer of a use. -/
def shown {α : Type} (intervals : α → List Interval) (x : Use α) (db : Database) : List Interval :=
  (x db).1.toOption.elim [] intervals

/-- The intervals that an operation answers. -/
def shows : Operation → Database → List Interval
  | openInterval key => shown Option.toList (Primitive.openInterval key)
  | beginInterval fresh key started => shown Begun.intervals (Primitive.beginInterval fresh key started)
  | closeInterval id stopped => shown Closed.intervals (Primitive.closeInterval id stopped)
  | intervalsOverlapping user first last => shown id (Primitive.intervalsOverlapping user first last)
  | start fresh now key => shown ([·]) (Session.start Database.intervals fresh now key)
  | stop now key => shown ([·]) (Session.stop Database.intervals now key)
  | report _ _ _ _ | request _ _ _ => fun _ => []

/-- The key and the time of the interval that an operation is to begin. -/
def begins : Operation → Option (KeyRef × Moment)
  | beginInterval _ key started => some (key, started)
  | start _ now key => some (key, now)
  | _ => none

/-- The operation reads intervals and changes none. -/
def Loads : Operation → Prop
  | openInterval _ | intervalsOverlapping _ _ _ => True
  | _ => False

theorem mem_shown {α : Type} {intervals : α → List Interval} {x : Use α} {db : Database} {i : Interval}
    (h : i ∈ shown intervals x db) : ∃ a, x db = (.ok a, (x db).2) ∧ i ∈ intervals a := by
  unfold shown at h
  rcases hx : x db with ⟨_ | a, db'⟩
  · rw [hx] at h
    cases h
  · rw [hx] at h
    exact ⟨a, rfl, h⟩

/-- Beside every interval that an operation answers stands a stored row: the one it was read from, or the
    one that was begun. -/
theorem holds_of_shows {op : Operation} {db : Database} {i : Interval} (hi : i ∈ op.shows db) :
    ∃ row, (op.run db).2.ledger.Holds row ∧
      (op.begins = none ∧ i = row.interval ∨
        ∃ key m, op.begins = some (key, m) ∧ BegunAs key m i row) := by
  cases op with
  | openInterval key =>
    obtain ⟨_ | _, hx, hmem⟩ := mem_shown hi
    · cases hmem
    obtain rfl := List.mem_singleton.mp hmem
    obtain ⟨row, hrow, hi⟩ := holds_of_openInterval hx
    have hledger : ((openInterval key).run db).2.ledger = db.ledger := keeps_openInterval key db
    exact ⟨row, hledger ▸ hrow, .inl ⟨rfl, hi⟩⟩
  | intervalsOverlapping user first last =>
    obtain ⟨is, hx, hmem⟩ := mem_shown hi
    obtain ⟨row, hrow, hi⟩ := holds_of_intervalsOverlapping hx hmem
    have hledger : ((intervalsOverlapping user first last).run db).2.ledger = db.ledger :=
      keeps_intervalsOverlapping user first last db
    exact ⟨row, hledger ▸ hrow, .inl ⟨rfl, hi⟩⟩
  | beginInterval fresh key m =>
    obtain ⟨_ | _, hx, hmem⟩ := mem_shown hi
    · obtain rfl := List.mem_singleton.mp hmem
      obtain ⟨row, hrow, hbegun⟩ := holds_of_beginInterval hx
      exact ⟨row, hrow, .inr ⟨key, m, rfl, hbegun⟩⟩
    · cases hmem
  | closeInterval id m =>
    obtain ⟨_ | _, hx, hmem⟩ := mem_shown hi
    · obtain rfl := List.mem_singleton.mp hmem
      obtain ⟨row, hrow, hi⟩ := holds_of_closeInterval hx
      exact ⟨row, hrow, .inl ⟨rfl, hi⟩⟩
    · cases hmem
  | start fresh now key =>
    obtain ⟨_, hx, hmem⟩ := mem_shown hi
    obtain rfl := List.mem_singleton.mp hmem
    obtain ⟨begun, db₁, hbegin, hlike, hr⟩ := Session.start_cases hx
    obtain _ | (_ | _) := begun
    · cases hr
    · cases hr
      obtain ⟨row, hrow, hbegun⟩ := holds_of_beginInterval hbegin
      have hledger : ((start fresh now key).run db).2.ledger = db₁.ledger := hlike.ledger
      exact ⟨row, hledger ▸ hrow, .inr ⟨key, now, rfl, hbegun⟩⟩
    · cases hr
  | stop now key =>
    obtain ⟨_, hx, hmem⟩ := mem_shown hi
    obtain rfl := List.mem_singleton.mp hmem
    obtain ⟨found, u, _, hfinish⟩ | ⟨_, _, hr⟩ := Run.bind_eq_iff.mp hx
    · cases found with
      | none =>
        obtain ⟨_, hrefuse, _⟩ := Session.refuseStop_eq key now u
        cases hrefuse.symm.trans hfinish
      | some found =>
        obtain ⟨closed, db₁, hclose, hlike, hr⟩ := Session.finish_cases hfinish
        obtain _ | (_ | _) := closed
        · cases hr
        · cases hr
          obtain ⟨row, hrow, hi⟩ := holds_of_closeInterval hclose
          have hledger : ((stop now key).run db).2.ledger = db₁.ledger := hlike.ledger
          exact ⟨row, hledger ▸ hrow, .inl ⟨rfl, hi⟩⟩
        · cases hr
    · cases hr
  | report now user first last => cases hi
  | request service fresh r => cases hi

theorem Loads.keeps {op : Operation} (h : op.Loads) (db : Database) :
    (op.run db).2.ledger = db.ledger ∧ op.begins = none := by
  cases op with
  | openInterval key => exact ⟨keeps_openInterval key db, rfl⟩
  | intervalsOverlapping user first last => exact ⟨keeps_intervalsOverlapping user first last db, rfl⟩
  | _ => cases h

/-- A row is loaded the same way by everybody, for as long as it stays as it is. -/
theorem Loads.interval_eq {op : Operation} (h : op.Loads) {db : Database} {rows : List Row} {row : Row}
    (hrows : db.ledger.rows = some rows) (hfine : Consistent rows) (hrow : row ∈ rows) {j : Interval}
    (hj : j ∈ op.shows db) (hid : j.id = row.id) : j = row.interval := by
  obtain ⟨hledger, hbegins⟩ := h.keeps db
  obtain ⟨row', ⟨rows', hrows', hrow'⟩, ⟨_, rfl⟩ | ⟨_, _, hbegun, _⟩⟩ := holds_of_shows hj
  · rw [hledger, hrows] at hrows'
    cases hrows'
    obtain rfl := hfine.eq_of_id hrow' hrow hid
    rfl
  · rw [hbegins] at hbegun
    cases hbegun

/-- What an operation is to begin is given as the database will store it. -/
def GivenAsStored (op : Operation) : Prop :=
  ∀ key m, op.begins = some (key, m) → key.stored = key ∧ m.offset = some .utc

end Operation

/-- An interval that was begun looks like its row if its key and its time were given as they are
    stored. -/
theorem Primitive.BegunAs.interval_eq_iff {key : KeyRef} {m : Moment} {i : Interval} {row : Row}
    (h : BegunAs key m i row) : row.interval = i ↔ key.stored = key ∧ m.offset = some .utc := by
  obtain ⟨id, user, task, started, stopped⟩ := i
  obtain rfl : started = m := h.started
  obtain rfl : stopped = none := h.shown_open
  have hid : row.id = id := h.id
  have hkey : key.stored = key ↔ row.key = ⟨user, task⟩ := by
    rw [← h.ref, ← h.key]
    exact ⟨Key.ref_injective, congrArg Key.ref⟩
  rw [hkey, ← Instant.toMoment_eq_iff h.bound]
  simp [Row.interval, Row.key, hid, h.stored_open, and_assoc]

namespace Operation

/-- The intervals that operations answer are in universal time, and look as their rows do whenever they are
    loaded before they change, with one exception: an interval that has just been begun is shown as it was
    given. What is loaded is at the same instants even then. -/
theorem loaded_as_shown_iff (op : Operation) (db : Database) (i : Interval) (hi : i ∈ op.shows db) :
    (i.InUtc ↔ ∀ key m, op.begins = some (key, m) → m.offset = some .utc) ∧
    ∃ row, (op.run db).2.ledger.Holds row ∧ row.id = i.id ∧
      ∀ (later : Database) (rows : List Row), later.ledger.rows = some rows → Consistent rows →
        row ∈ rows → ∀ load : Operation, load.Loads → ∀ j ∈ load.shows later, j.id = i.id →
          (j = i ↔ op.GivenAsStored) ∧ j.InUtc ∧ j.started.instant = i.started.instant ∧
            j.stopped.map Moment.instant = i.stopped.map Moment.instant := by
  obtain ⟨row, hrow, ⟨hbegins, rfl⟩ | ⟨key, m, hbegins, hbegun⟩⟩ := holds_of_shows hi
  · have hgiven (P : KeyRef → Moment → Prop) : ∀ key m, op.begins = some (key, m) → P key m := by
      intro key m hbegun
      rw [hbegins] at hbegun
      cases hbegun
    refine ⟨iff_of_true row.interval_inUtc (hgiven _), row, hrow, rfl, ?_⟩
    intro later rows hrows hfine hstill load hload j hj hid
    obtain rfl := hload.interval_eq hrows hfine hstill hj hid
    exact ⟨iff_of_true rfl (hgiven _), row.interval_inUtc, rfl, rfl⟩
  · have hgiven (P : KeyRef → Moment → Prop) :
        (∀ key m, op.begins = some (key, m) → P key m) ↔ P key m := by
      rw [hbegins]
      exact ⟨fun h => h key m rfl, by rintro h _ _ ⟨⟩; exact h⟩
    have hutc : i.InUtc ↔ m.offset = some .utc := by
      simp [Interval.InUtc, hbegun.started, hbegun.shown_open]
    refine ⟨hutc.trans (hgiven fun _ m => m.offset = some .utc).symm, row, hrow, hbegun.id, ?_⟩
    intro later rows hrows hfine hstill load hload j hj hid
    have hloaded := hload.interval_eq hrows hfine hstill hj (hid.trans hbegun.id.symm)
    have hinstant := (Instant.ofMoment_eq_ok_iff.mp hbegun.bound).2
    rw [hloaded]
    refine ⟨hbegun.interval_eq_iff.trans
      (hgiven fun key m => key.stored = key ∧ m.offset = some .utc).symm, row.interval_inUtc, ?_, ?_⟩
    · rw [hbegun.started, ← hinstant]
      exact Instant.instant_toMoment row.started
    · simp [Row.interval, hbegun.stored_open, hbegun.shown_open]

/-- A stop whose clock is two hours east of universal time, and the reading of a window after it. -/
theorem stopped_abroad_loads_alike :
    let abroad : Offset := ⟨120 * minuteMicros, by decide⟩
    let opened : Row := ⟨.ofNat 0xa1, .int 7, .int 3, ⟨0, by decide⟩, none⟩
    let stop : Operation := .stop ⟨180 * minuteMicros, some abroad, by decide⟩ opened.key.ref
    let load : Operation := .intervalsOverlapping (some (.int 7)) ⟨0, some .utc, by decide⟩
      ⟨dayMicros, some .utc, by decide⟩
    let before : Database := { ledger := { rows := some [opened] } }
    let i := (opened.stoppedAt ⟨60 * minuteMicros, by decide⟩).interval
    i ∈ stop.shows before ∧ i ∈ load.shows (stop.run before).2 ∧ i.InUtc ∧
      ∀ j ∈ load.shows (stop.run before).2, j.id = i.id → j = i := by
  intro abroad opened stop load before i
  have hshown : i ∈ stop.shows before := by decide +kernel
  have hloaded : i ∈ load.shows (stop.run before).2 := by decide +kernel
  have hrows : (stop.run before).2.ledger.rows =
      some [opened.stoppedAt ⟨60 * minuteMicros, by decide⟩] := by decide +kernel
  have hfine : Consistent [opened.stoppedAt ⟨60 * minuteMicros, by decide⟩] := by
    refine ⟨List.pairwise_singleton .., List.pairwise_singleton .., fun r hr ended hended => ?_⟩
    obtain rfl := List.mem_singleton.mp hr
    cases hended
    exact Nat.zero_le _
  obtain ⟨hutc, row, ⟨rows, hrow, hmem⟩, hid, hlater⟩ := loaded_as_shown_iff stop before i hshown
  obtain rfl := Option.some.inj (hrow.symm.trans hrows)
  refine ⟨hshown, hloaded, hutc.mpr (by rintro _ _ ⟨⟩), fun j hj hsame => ?_⟩
  obtain ⟨hlook, _⟩ := hlater _ _ hrows hfine hmem load trivial j hj hsame
  exact hlook.mpr (by rintro _ _ ⟨⟩)

/-- An interval that is begun by a clock two hours east of universal time is answered with that offset, and
    loaded without it. -/
theorem begun_abroad_loads_otherwise :
    let abroad : Offset := ⟨120 * minuteMicros, by decide⟩
    let noon : Moment := ⟨738885 * dayMicros + 720 * minuteMicros, some abroad, by decide⟩
    let key : KeyRef := ⟨some (.int 1), some (.int 1)⟩
    let begin : Operation := .beginInterval (.ofNat 0xa1) key noon
    let load : Operation := .openInterval key
    ∃ i j : Interval, begin.shows {} = [i] ∧ load.shows (begin.run {}).2 = [j] ∧ j.id = i.id ∧
      i.started.text = "2024-01-01T12:00:00+02:00" ∧ j.started.text = "2024-01-01T10:00:00+00:00" ∧
      ¬ i.InUtc ∧ j ≠ i := by
  intro abroad noon key begin load
  refine ⟨⟨.ofNat 0xa1, .int 1, .int 1, noon, none⟩, ⟨.ofNat 0xa1, .int 1, .int 1,
    ⟨738885 * dayMicros + 600 * minuteMicros, some .utc, by decide⟩, none⟩, ?_⟩
  have hoffset : abroad ≠ .utc := by decide
  refine ⟨by decide +kernel, by decide +kernel, rfl, by decide +kernel, by decide +kernel, fun hutc => ?_,
    fun hsame => ?_⟩
  · exact hoffset (Option.some.inj hutc.1)
  · exact absurd (congrArg (fun i : Interval => i.started.offset) hsame) (by decide)

end Operation
end Worklog
