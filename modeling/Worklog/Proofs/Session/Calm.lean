import Worklog.Proofs.Database.Calm
import Worklog.Proofs.Session.Calls

namespace Worklog.Session

variable {db : Database} {rows : List Row} {key : KeyRef}

/-- A start on a key with an open row is refused. -/
theorem start_of_open (h : db.Ready rows) (hkey : key.fits = true)
    (hadmits : db.ledger.admits key = true) (fresh : Uuid) {now : Moment} (hnow : now.Storable)
    {r : Row} (hr : r ∈ rows) (hopen : r.isOpenFor key = true) :
    ∃ db', start Database.intervals fresh now key db = (.error (alreadyStarted key), db') ∧
      db.Alike db' := by
  obtain ⟨db₁, hbegin, hlike⟩ :=
    Primitive.beginInterval_of_open h hkey hadmits fresh hnow hr hopen
  rcases hstart : start Database.intervals fresh now key db with ⟨answer, db'⟩
  obtain ⟨begun, db₂, hbegun, hnoted, rfl⟩ := start_cases hstart
  cases hbegin.symm.trans hbegun
  exact ⟨db', rfl, hlike.trans hnoted⟩

/-- A start on a key without an open row adds one. -/
theorem start_of_free (h : db.Ready rows) (hkey : key.fits = true)
    (hadmits : db.ledger.admits key = true) {fresh : Uuid}
    (hnew : ∀ r ∈ rows, r.id ≠ fresh) {now : Moment} (hnow : now.Storable)
    (hfree : ∀ r ∈ rows, ¬ r.isOpenFor key = true) :
    ∃ db' row, start Database.intervals fresh now key db =
        (.ok ⟨fresh, row.user, row.task, now, none⟩, db') ∧
      db'.disruption = db.disruption ∧
      db'.ledger = { db.ledger with rows := some (rows ++ [row]) } ∧
      row.id = fresh ∧ row.key.ref = key ∧ Instant.ofMoment now = .ok row.started ∧
      row.stopped = none := by
  obtain ⟨db₁, row, hbegin, hdisruption, hledger, hrow⟩ :=
    Primitive.beginInterval_of_free h hkey hadmits hnew hnow hfree
  rcases hstart : start Database.intervals fresh now key db with ⟨answer, db'⟩
  obtain ⟨begun, db₂, hbegun, hnoted, rfl⟩ := start_cases hstart
  cases hbegin.symm.trans hbegun
  exact ⟨db', row, rfl, hnoted.disruption.trans hdisruption, hnoted.ledger.trans hledger, hrow⟩

/-- The first step of a stop finds the open row of its key. -/
theorem find_of_open (h : db.Ready rows) (hkey : key.fits = true) {r : Row} (hr : r ∈ rows)
    (hopen : r.isOpenFor key = true) :
    ∃ db', find Database.intervals key db = (.ok (some r.interval), db') ∧ db.Alike db' := by
  obtain ⟨db', hlook, hlike⟩ := Primitive.openInterval_of_fits h hkey
  refine ⟨db', ?_, hlike⟩
  rw [find_eq, hlook]
  obtain hnone | ⟨r', hr', hopen', hone⟩ := h.consistent.filter_open key
  · exact absurd hopen (List.filter_eq_nil_iff.mp hnone r hr)
  · obtain rfl := h.consistent.eq_of_isOpenFor hr' hr hopen' hopen
    rw [hone]
    rfl

/-- The first step of a stop finds nothing when its key has no open row. -/
theorem find_of_free (h : db.Ready rows) (hkey : key.fits = true)
    (hfree : ∀ r ∈ rows, ¬ r.isOpenFor key = true) :
    ∃ db', find Database.intervals key db = (.ok none, db') ∧ db.Alike db' := by
  obtain ⟨db', hlook, hlike⟩ := Primitive.openInterval_of_fits h hkey
  refine ⟨db', ?_, hlike⟩
  rw [find_eq, hlook, List.filter_eq_nil_iff.mpr hfree]
  rfl

/-- The last step of a stop ends the row that was found, if it is still open. -/
theorem finish_of_open (h : db.Ready rows) (key : KeyRef) {found : Interval} {r : Row} (hr : r ∈ rows)
    (hid : r.id = found.id) (hopen : r.stopped = none) {now : Moment} {ended : Instant}
    (hend : Instant.ofMoment now = .ok ended) (horder : r.started.micros ≤ ended.micros) :
    ∃ db', finish Database.intervals key (some found) now db =
        (.ok (r.stoppedAt ended).interval, db') ∧
      db'.disruption = db.disruption ∧
      db'.ledger = { db.ledger with rows := some (rows.map (Row.closing found.id ended)) } := by
  obtain ⟨db₁, hclose, hdisruption, hledger⟩ :=
    Primitive.closeInterval_of_open h hr hopen hend horder
  rcases hfinish : finish Database.intervals key (some found) now db with ⟨answer, db'⟩
  obtain ⟨closed, db₂, hclosed, hnoted, rfl⟩ := finish_cases hfinish
  rw [← hid] at hclosed ⊢
  cases hclose.symm.trans hclosed
  exact ⟨db', rfl, hnoted.disruption.trans hdisruption, hnoted.ledger.trans hledger⟩

/-- The last step of a stop is refused when the row that was found has been ended. -/
theorem finish_of_closed (h : db.Ready rows) (key : KeyRef)
    {found : Interval} (hclosed : ∀ r ∈ rows, ¬ r.isOpenWith found.id = true) {now : Moment}
    (hnow : now.Storable) :
    ∃ db', finish Database.intervals key (some found) now db = (.error (notStarted key), db') ∧
      db.Alike db' := by
  obtain ⟨db₁, hclose, hlike⟩ := Primitive.closeInterval_of_closed h hclosed hnow
  rcases hfinish : finish Database.intervals key (some found) now db with ⟨answer, db'⟩
  obtain ⟨closed, db₂, hend, hnoted, rfl⟩ := finish_cases hfinish
  cases hclose.symm.trans hend
  exact ⟨db', rfl, hlike.trans hnoted⟩

/-- A stop whose steps follow each other ends the open row of its key. -/
theorem stop_of_open (h : db.Ready rows) (hkey : key.fits = true) {r : Row} (hr : r ∈ rows)
    (hopen : r.isOpenFor key = true) {now : Moment} {ended : Instant}
    (hend : Instant.ofMoment now = .ok ended) (horder : r.started.micros ≤ ended.micros) :
    ∃ db', stop Database.intervals now key db = (.ok (r.stoppedAt ended).interval, db') ∧
      db'.disruption = db.disruption ∧
      db'.ledger = { db.ledger with rows := some (rows.map (Row.closing r.id ended)) } := by
  obtain ⟨db₁, hfind, hlike⟩ := find_of_open h hkey hr hopen
  have hid : r.id = r.interval.id := rfl
  obtain ⟨db', hfinish, hdisruption, hledger⟩ := finish_of_open (h.alike hlike) key hr hid
    (Row.isOpenFor_iff.mp hopen).2 hend horder
  refine ⟨db', ?_, hdisruption.trans hlike.disruption, ?_⟩
  · exact (Run.bind_of_ok hfind).trans hfinish
  · rw [hledger, hlike.ledger]
    rfl

/-- A stop on a key without an open row is refused. -/
theorem stop_of_free (h : db.Ready rows) (hkey : key.fits = true)
    (hfree : ∀ r ∈ rows, ¬ r.isOpenFor key = true) (now : Moment) :
    ∃ db', stop Database.intervals now key db = (.error (notStarted key), db') ∧ db.Alike db' := by
  obtain ⟨db₁, hfind, hlike⟩ := find_of_free h hkey hfree
  obtain ⟨db', hrefuse, hnoted⟩ := refuseStop_eq key now db₁
  exact ⟨db', (Run.bind_of_ok hfind).trans hrefuse, hlike.trans hnoted⟩

end Worklog.Session
