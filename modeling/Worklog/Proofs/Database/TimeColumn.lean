import Worklog.Proofs.Calendar
import Worklog.Proofs.Database.Contract
import Worklog.Store.Column

namespace Worklog

namespace Instant

theorem ofMoment_eq_naive_iff {m : Moment} : ofMoment m = .error .naive ↔ m.isAware = false := by
  unfold ofMoment ofMicros
  cases m.isAware
  · simp
  · by_cases hrange : 0 ≤ m.instant ∧ m.instant.toNat < calendarMicros <;> simp [hrange]

theorem ofMoment_eq_outOfRange_iff {m : Moment} :
    ofMoment m = .error .outOfRange ↔
      m.isAware = true ∧ ¬ (0 ≤ m.instant ∧ m.instant < calendarMicros) := by
  have hrange : (0 ≤ m.instant ∧ m.instant.toNat < calendarMicros) ↔
      (0 ≤ m.instant ∧ m.instant < calendarMicros) := by omega
  unfold ofMoment ofMicros
  rw [← hrange]
  cases m.isAware
  · simp
  · by_cases h : 0 ≤ m.instant ∧ m.instant.toNat < calendarMicros <;> simp [h]

theorem ofMoment_toMoment (i : Instant) : ofMoment i.toMoment = .ok i :=
  ofMoment_eq_ok_iff.mpr ⟨rfl, (instant_toMoment i).symm⟩

theorem instant_toReading (i : Instant) : i.toReading.instant = i.micros := by
  simp [toReading, Moment.instant, Moment.offsetMicros]

end Instant

namespace TimeColumn

variable {d : Dialect} {a b m : Moment} {i j : Instant}

theorem bind_of_ofMoment (d : Dialect) (h : Instant.ofMoment m = .ok i) :
    bind d (some m) = .ok (some (stored d i)) := by
  rw [bind, h]
  rfl

theorem bind_eq_error_iff {fault : ClockFault} :
    bind d (some m) = .error fault ↔ Instant.ofMoment m = .error fault := by
  rw [bind]
  cases Instant.ofMoment m with
  | ok i => exact ⟨nofun, nofun⟩
  | error fault' => simp [Except.map]

theorem load_of_ofMoment (h : Instant.ofMoment m = .ok i) : load (some m) = .ok (some i.toMoment) := by
  rw [load, Instant.toUtc_of_ofMoment h]
  rfl

theorem load_stored (d : Dialect) (i : Instant) : load (some (stored d i)) = .ok (some i.toMoment) := by
  unfold stored
  split
  · rfl
  · exact load_of_ofMoment (Instant.ofMoment_toMoment i)

/-- What is stored of a moment, and what is read back. -/
structure Keeps (d : Dialect) (m kept back : Moment) : Prop where
  bound : bind d (some m) = .ok (some kept)
  naive_iff : kept.isAware = false ↔ d = .sqlite
  kept_instant : kept.instant = m.instant
  loaded : load (some kept) = .ok (some back)
  /-- A database may show the instant on any clock. -/
  loaded_shown : ∀ shown : Moment, shown.isAware = true → shown.instant = m.instant →
    load (some shown) = .ok (some back)
  utc : back.offset = some .utc
  instant : back.instant = m.instant
  /-- The reading is one of the calendar. -/
  valid : back.reading.Valid
  /-- It is the reading of the moment, less the offset. -/
  reading : (back.reading.micros : Int) = m.reading.micros - m.offsetMicros
  bound_again : bind d (some back) = .ok (some kept)

/-- Two kept values compare as the instants of the moments they were kept for. -/
structure Compares (a b kept kept' : Moment) : Prop where
  eq_iff : kept = kept' ↔ a.instant = b.instant
  before : kept.before kept' = .ok (decide (a.instant < b.instant))
  fields_lt_iff : kept.reading.fields < kept'.reading.fields ↔ a.instant < b.instant
  text_lt_iff : kept.reading.columnText < kept'.reading.columnText ↔ a.instant < b.instant

theorem keeps_of_ofMoment (d : Dialect) (h : Instant.ofMoment m = .ok i) :
    Keeps d m (stored d i) i.toMoment := by
  have hinstant := (Instant.ofMoment_eq_ok_iff.mp h).2
  refine ⟨bind_of_ofMoment d h, ?_, ?_, load_stored d i, fun shown haware hshown => ?_, rfl, ?_,
    Moment.valid_reading _, ?_, bind_of_ofMoment d (Instant.ofMoment_toMoment i)⟩
  · unfold stored
    split <;> simp [Instant.toReading, Instant.toMoment, Moment.isAware, *]
  · unfold stored
    split <;> rw [← hinstant]
    · exact Instant.instant_toReading i
    · exact Instant.instant_toMoment i
  · exact load_of_ofMoment (Instant.ofMoment_eq_ok_iff.mpr ⟨haware, hinstant.trans hshown.symm⟩)
  · rw [Instant.instant_toMoment, hinstant]
  · rw [Moment.micros_reading, Moment.micros_reading]
    exact hinstant

theorem compares_of_ofMoment (ha : Instant.ofMoment a = .ok i) (hb : Instant.ofMoment b = .ok j) :
    Compares a b i.toReading j.toReading := by
  have hlt : i.micros < j.micros ↔ a.instant < b.instant := by
    rw [← (Instant.ofMoment_eq_ok_iff.mp ha).2, ← (Instant.ofMoment_eq_ok_iff.mp hb).2, Int.ofNat_lt]
  have hreading (i : Instant) : i.toReading.reading.micros = i.micros := Moment.micros_reading _
  refine ⟨?_, ?_, ?_, ?_⟩
  · rw [← (Instant.ofMoment_eq_ok_iff.mp ha).2, ← (Instant.ofMoment_eq_ok_iff.mp hb).2, Int.ofNat_inj]
    simp [Instant.toReading]
  · have hkind : i.toReading.sameKind j.toReading = true := rfl
    rw [Moment.before, if_pos hkind, Instant.instant_toReading, Instant.instant_toReading]
    simp [hlt]
  · rw [(Moment.valid_reading _).fields_lt_iff (Moment.valid_reading _), hreading, hreading, hlt]
  · rw [(Moment.valid_reading _).columnText_lt_iff (Moment.valid_reading _), hreading, hreading, hlt]

end TimeColumn

namespace Ledger

variable {l l' : Ledger} {id : Uuid}

/-- The times of a stored interval are the instants of the moments it was stored with, and in order. -/
theorem instants_of_insertRow {prepared : Bool} {key : KeyRef} {started : Moment} {stopped : Option Moment}
    {row : Row} (h : insertRow prepared id key started stopped l = .ok (row, l')) :
    (row.started.micros : Int) = started.instant ∧
      row.stopped.map (fun ended => (ended.micros : Int)) = stopped.map Moment.instant ∧
      ∀ ended ∈ stopped, started.instant ≤ ended.instant := by
  obtain ⟨rows, -, -, -, hstart, hstop, horder, -⟩ := insertRow_eq_ok h
  have hstarted := (Instant.ofMoment_eq_ok_iff.mp hstart).2
  refine ⟨hstarted, ?_⟩
  cases stopped with
  | none =>
    have hopen : row.stopped = none := (Except.ok.inj hstop).symm
    simp [hopen]
  | some ended =>
    obtain ⟨last, hlast, hclosed⟩ := except_map_eq_ok_iff.mp hstop
    have hended := (Instant.ofMoment_eq_ok_iff.mp (bindTime_eq_ok_iff.mp hlast)).2
    have hle := Row.inOrder_iff.mp horder last hclosed.symm
    refine ⟨by rw [← hclosed, Option.map_some, Option.map_some, hended], ?_⟩
    rintro _ ⟨⟩
    omega

/-- Only an interval that ends before it starts fails the check of its order. -/
theorem early_of_insertRow {prepared : Bool} {key : KeyRef} {started : Moment} {stopped : Option Moment}
    (h : insertRow prepared id key started stopped l = .error (.violates .stopAfterStart)) :
    ∃ ended ∈ stopped, ended.instant < started.instant := by
  unfold insertRow at h
  rw [except_bind_eq_error_iff] at h
  obtain h | ⟨first, hstart, h⟩ := h
  · exact absurd h (bindTime_ne_violates _ _)
  rw [except_bind_eq_error_iff] at h
  obtain h | ⟨last?, hstop, h⟩ := h
  · exact absurd h (bindTime?_ne_violates _ _)
  obtain ⟨⟨rows, parents⟩, key', h, -⟩ :=
    prepare_of_violates (insertTables_ne_violates _) (bindKey_ne_violates _) h
  simp only [except_bind_eq_error_iff, required_eq_error_iff, require_eq_error_iff, Rejection.violates.injEq,
    pure, Except.pure, reduceCtorEq, and_false, exists_false, false_or, or_false, and_true] at h
  obtain ⟨user, -, task, -, hfault⟩ := h
  cases stopped with
  | none =>
    cases hstop
    cases hfault
  | some ended =>
    obtain ⟨last, hlast, rfl⟩ := except_map_eq_ok_iff.mp hstop
    have hended := (Instant.ofMoment_eq_ok_iff.mp (bindTime_eq_ok_iff.mp hlast)).2
    have hstarted := (Instant.ofMoment_eq_ok_iff.mp (bindTime_eq_ok_iff.mp hstart)).2
    simp only [Row.inOrder, Option.all_some, decide_eq_false_iff_not] at hfault
    exact ⟨ended, rfl, by omega⟩

/-- An ending fails exactly if it comes before the start of the open interval that it would end. -/
theorem closeRow_early_iff {stopped : Moment} {rows : List Row} (hrows : l.rows = some rows)
    (hstop : stopped.Storable) :
    closeRow id stopped l = .error (.violates .stopAfterStart) ↔
      ∃ r ∈ rows, r.isOpenWith id = true ∧ stopped.instant < r.started.micros := by
  obtain ⟨ended, hend⟩ := Instant.storable_iff.mp hstop
  have hinstant := (Instant.ofMoment_eq_ok_iff.mp hend).2
  constructor
  · intro h
    obtain ⟨rows', ended', hrows', hend', r, hr, hopen, hearly⟩ := early_of_closeRow h
    cases hrows.symm.trans hrows'
    cases hend.symm.trans hend'
    exact ⟨r, hr, hopen, by omega⟩
  · rintro ⟨r, hr, hopen, hearly⟩
    exact closeRow_of_early hrows hend hr hopen (by omega)

/-- The overlapping intervals of a user are those that reach into the window as instants. -/
theorem mem_overlappingRows_iff {prepared : Bool} {user : Option Ident} {start stop : Moment}
    {rows found : List Row} (hrows : l.rows = some rows)
    (h : overlappingRows prepared user start stop l = .ok found) (r : Row) :
    r ∈ found ↔ r ∈ rows ∧ r.ofUser (user.bind Ident.stored) = true ∧ Contract.Reaches start stop r := by
  unfold overlappingRows at h
  simp only [except_bind_eq_ok_iff] at h
  obtain ⟨last, hlast, first, hfirst, ⟨rows', user'⟩, hprepare, h⟩ := h
  obtain ⟨htable, huser⟩ := prepare_eq_ok_iff.mp hprepare
  cases hrows.symm.trans (rowTable_eq_ok_iff.mp htable)
  cases bindIdent_eq_ok huser
  cases h
  rw [List.mem_mergeSort, List.mem_filter, Bool.and_eq_true,
    Row.reaches_iff (Instant.ofMoment_eq_ok_iff.mp (bindTime_eq_ok_iff.mp hfirst)).2
      (Instant.ofMoment_eq_ok_iff.mp (bindTime_eq_ok_iff.mp hlast)).2]

end Ledger

namespace TimeColumn

/-- The statements of the ledger bind times as the column does. -/
theorem bind_eq_ok_iff {d : Dialect} {m s : Moment} :
    bind d (some m) = .ok (some s) ↔ ∃ i, Ledger.bindTime m = .ok i ∧ s = stored d i := by
  simp only [bind, except_map_eq_ok_iff, Ledger.bindTime_eq_ok_iff, Option.some.injEq, @eq_comm _ s]

/-- Checks and filters on intervals compare the instants of the moments that the statements were given. -/
structure Judges (l : Ledger) : Prop where
  inserted : ∀ {prepared id key started stopped row l'},
    Ledger.insertRow prepared id key started stopped l = .ok (row, l') →
      (row.started.micros : Int) = started.instant ∧
        row.stopped.map (fun ended => (ended.micros : Int)) = stopped.map Moment.instant ∧
        ∀ ended ∈ stopped, started.instant ≤ ended.instant
  not_inserted : ∀ {prepared id key started stopped},
    Ledger.insertRow prepared id key started stopped l = .error (.violates .stopAfterStart) →
      ∃ ended ∈ stopped, ended.instant < started.instant
  not_closed_iff : ∀ {rows id stopped}, l.rows = some rows → stopped.Storable →
    (Ledger.closeRow id stopped l = .error (.violates .stopAfterStart) ↔
      ∃ r ∈ rows, r.isOpenWith id = true ∧ stopped.instant < r.started.micros)
  found_iff : ∀ {prepared user start stop rows found}, l.rows = some rows →
    Ledger.overlappingRows prepared user start stop l = .ok found →
      ∀ r, r ∈ found ↔ r ∈ rows ∧ r.ofUser (user.bind Ident.stored) = true ∧ Contract.Reaches start stop r

/-- The column keeps instants and their order. On every database a moment that can be stored comes back as
    universal time at its instant, which is stored in the same form; values kept by SQLite compare as their
    instants do, and so do the statements on intervals, which bind moments as the column does. Naive moments
    are refused as naive, aware ones outside the calendar as out of range, and no others are. -/
theorem keeps_instants_in_order :
    (∀ d m, m.Storable → ∃ kept back, Keeps d m kept back) ∧
    (∀ a b kept kept', bind .sqlite (some a) = .ok (some kept) → bind .sqlite (some b) = .ok (some kept') →
      Compares a b kept kept') ∧
    (∀ d m kept, bind d (some m) = .ok (some kept) ↔ ∃ i, Ledger.bindTime m = .ok i ∧ kept = stored d i) ∧
    (∀ l, Judges l) ∧
    (∀ d m, bind d (some m) = .error .naive ↔ m.isAware = false) ∧
    (∀ d m, bind d (some m) = .error .outOfRange ↔
      m.isAware = true ∧ ¬ (0 ≤ m.instant ∧ m.instant < calendarMicros)) := by
  refine ⟨fun d m hm => ?_, fun a b kept kept' ha hb => ?_, fun d m kept => bind_eq_ok_iff, fun l => ?_,
    fun d m => ?_, fun d m => ?_⟩
  · obtain ⟨i, hi⟩ := Instant.storable_iff.mp hm
    exact ⟨_, _, keeps_of_ofMoment d hi⟩
  · obtain ⟨i, hi, rfl⟩ := bind_eq_ok_iff.mp ha
    obtain ⟨j, hj, rfl⟩ := bind_eq_ok_iff.mp hb
    exact compares_of_ofMoment (Ledger.bindTime_eq_ok_iff.mp hi) (Ledger.bindTime_eq_ok_iff.mp hj)
  · exact ⟨Ledger.instants_of_insertRow, Ledger.early_of_insertRow, Ledger.closeRow_early_iff,
      Ledger.mem_overlappingRows_iff⟩
  · rw [bind_eq_error_iff, Instant.ofMoment_eq_naive_iff]
  · rw [bind_eq_error_iff, Instant.ofMoment_eq_outOfRange_iff]

/-- Half past midnight on the first of March 2024, an hour east of Greenwich. -/
def afterLeapDay : Moment :=
  ⟨Date.toDays ⟨2024, 3, 1⟩ * dayMicros + 30 * minuteMicros, some ⟨60 * minuteMicros, by decide⟩, by decide⟩

/-- The first moment of the calendar on the same clock. -/
def beforeCalendar : Moment := { tick 0 with offset := afterLeapDay.offset }

/-- A moment is kept across the end of a leap year's February; one before the calendar is refused. -/
theorem keeps_leap_day :
    (∃ kept back, Keeps .sqlite afterLeapDay kept back ∧
      back.reading = ⟨⟨2024, 2, 29⟩, 23, 30, 0, 0⟩) ∧
    bind .postgresql (some beforeCalendar) = .error .outOfRange := by
  obtain ⟨hkeeps, -, -, -, -, hrefused⟩ := keeps_instants_in_order
  obtain ⟨kept, back, hleap⟩ := hkeeps .sqlite afterLeapDay (by decide)
  refine ⟨⟨kept, back, hleap, ?_⟩, (hrefused _ _).mpr (by decide)⟩
  have hvalid : (⟨⟨2024, 2, 29⟩, 23, 30, 0, 0⟩ : Reading).Valid :=
    ⟨by decide, by decide, by decide, by decide, by decide⟩
  refine (hleap.valid.micros_inj hvalid).mp (Int.ofNat_inj.mp ?_)
  rw [hleap.reading, Moment.micros_reading]
  decide

end TimeColumn
end Worklog
