import Worklog.Proofs.Database.Calm
import Worklog.Proofs.Report.Totals
import Worklog.Proofs.Session.Calls

namespace Worklog

namespace Row

/-- A microsecond belongs to a row: it is not before the start, and before the end if there is one. -/
def Covers (r : Row) (t : Int) : Prop :=
  (r.started.micros : Int) ≤ t ∧ ∀ ended ∈ r.stopped, t < (ended.micros : Int)

instance (r : Row) (t : Int) : Decidable (r.Covers t) := inferInstanceAs (Decidable (_ ∧ _))

variable {r : Row} {now : Moment}

theorem effectiveEnd_of_open (h : r.stopped = none) (now : Moment) :
    r.interval.effectiveEnd now = now := by
  simp [Interval.effectiveEnd, interval, h]

theorem effectiveEnd_of_closed {ended : Instant} (h : r.stopped = some ended) (now : Moment) :
    r.interval.effectiveEnd now = ended.toMoment := by
  simp [Interval.effectiveEnd, interval, h]

theorem instant_started (r : Row) : r.interval.started.instant = r.started.micros :=
  Instant.instant_toMoment r.started

/-- Of the microseconds of a row an interval has those that have passed. -/
theorem mem_span_iff (h : r.Past now) (t : Int) :
    t ∈ r.interval.span now ↔ r.Covers t ∧ t < now.instant := by
  rw [Interval.span, Moment.mem_upTo, instant_started, Covers, and_assoc]
  refine and_congr_right fun _ => ?_
  cases hstopped : r.stopped with
  | none => simp [effectiveEnd_of_open hstopped]
  | some ended =>
    have hpast := h.stopped ended hstopped
    rw [effectiveEnd_of_closed hstopped, Instant.instant_toMoment]
    simp only [Option.mem_def, Option.some.injEq, forall_eq']
    exact ⟨fun hlt => ⟨hlt, hlt.trans_le hpast⟩, And.left⟩

/-- Only an open row is about the time of the report. -/
theorem sane_interval
    (hstarted : r.stopped = none →
      now.isAware = true ∧ (r.started.micros : Int) ≤ now.instant)
    (horder : ∀ ended, r.stopped = some ended → r.started.micros ≤ ended.micros) :
    r.interval.Sane now where
  started := rfl
  ended := by
    cases hstopped : r.stopped with
    | none =>
      rw [effectiveEnd_of_open hstopped]
      exact (hstarted hstopped).1
    | some ended =>
      rw [effectiveEnd_of_closed hstopped]
      rfl
  ordered := by
    rw [instant_started]
    cases hstopped : r.stopped with
    | none =>
      rw [effectiveEnd_of_open hstopped]
      exact (hstarted hstopped).2
    | some ended =>
      rw [effectiveEnd_of_closed hstopped, Instant.instant_toMoment]
      exact Int.ofNat_le.mpr (horder ended hstopped)

/-- A row that meets a window reaches into it. -/
theorem reaches_of_meets {w : Window} {first last : Instant}
    (hfirst : (first.micros : Int) = w.start.instant) (hlast : (last.micros : Int) = w.stop.instant)
    (h : r.interval.Meets w now) : r.reaches first last = true := by
  obtain ⟨hstart, hend⟩ := h
  rw [instant_started, ← hlast] at hstart
  rw [reaches, Bool.and_eq_true, decide_eq_true_eq]
  refine ⟨Int.ofNat_lt.mp hstart, ?_⟩
  cases hstopped : r.stopped with
  | none => rfl
  | some ended =>
    rw [effectiveEnd_of_closed hstopped, Instant.instant_toMoment, ← hfirst] at hend
    simpa using hend

end Row

/-- Aware bounds of which the first is earlier make a window that is not empty. -/
theorem Window.check_of_lt {start stop : Moment} (hstart : start.isAware = true)
    (hstop : stop.isAware = true) (hlt : start.instant < stop.instant) :
    check start stop = .ok ⟨start, stop⟩ ∧ isEmpty ⟨start, stop⟩ = false :=
  ⟨by simp [check, hstart, hstop, not_lt.mpr hlt.le], by simp [isEmpty, Moment.same, hlt.ne]⟩

namespace Report

variable {w : Window} {now : Moment} {task : Ident} {is is' : List Interval} {rows : List Row}

/-- The microseconds of a window that belong to some interval of a task. -/
def worked (task : Ident) (is : List Interval) (w : Window) (now : Moment) : Finset Int :=
  w.span.filter fun t => ∃ i ∈ is, i.task = task ∧ t ∈ i.span now

/-- No microsecond belongs to two intervals of a task. -/
def Apart (task : Ident) (is : List Interval) (now : Moment) : Prop :=
  is.Pairwise fun i j => i.task = task → j.task = task → Disjoint (i.span now) (j.span now)

theorem worked_cons (task : Ident) (i : Interval) (is : List Interval) (w : Window) (now : Moment) :
    worked task (i :: is) w now =
      (if i.task = task then i.span now ∩ w.span else ∅) ∪ worked task is w now := by
  ext t
  by_cases htask : i.task = task
  · simp only [worked, htask, Finset.mem_filter, List.mem_cons, exists_eq_or_imp, true_and, if_true,
      Finset.mem_union, Finset.mem_inter]
    tauto
  · simp [worked, htask]

theorem spent_cons (task : Ident) (i : Interval) (is : List Interval) (w : Window) (now : Moment) :
    spent task (i :: is) w now =
      (if i.task = task then i.share w now else 0) + spent task is w now := by
  rw [← List.singleton_append, spent_append, spent_single]

/-- While no microsecond belongs to two intervals, time is the number of microseconds. -/
theorem spent_eq_card (h : Apart task is now) (w : Window) :
    spent task is w now = (worked task is w now).card := by
  induction is with
  | nil => simp [spent, worked]
  | cons i is ih =>
    obtain ⟨hi, his⟩ := List.pairwise_cons.mp h
    rw [spent_cons, worked_cons, ih his]
    by_cases htask : i.task = task
    · rw [if_pos htask, if_pos htask, Finset.card_union_of_disjoint, Interval.share]
      rw [Finset.disjoint_left]
      intro t ht hworked
      obtain ⟨_, j, hj, hjTask, htj⟩ := Finset.mem_filter.mp hworked
      have hdisjoint := hi j hj htask hjTask
      exact Finset.disjoint_left.mp hdisjoint (Finset.mem_inter.mp ht).1 htj
    · rw [if_neg htask, if_neg htask, Finset.empty_union, Nat.zero_add]

theorem Tallies.of_perm {totals : List TaskTime} (h : Tallies totals is w now) (hperm : is.Perm is') :
    Tallies totals is' w now where
  nodup := h.nodup
  earned := by
    intro r hr
    obtain ⟨i, hi, hir⟩ := h.earned r hr
    exact ⟨i, hperm.mem_iff.mp hi, hir⟩
  micros := by
    intro r hr
    rw [h.micros r hr, spent, spent, ((hperm.filter _).map _).sum_eq]
  complete := fun i hi hmeets => h.complete i (hperm.mem_iff.mpr hi) hmeets

/-- Rows that do not meet the window may be left out. -/
theorem spent_filter {p : Row → Bool} (hp : ∀ r ∈ rows, r.interval.Meets w now → p r = true)
    (task : Ident) :
    spent task ((rows.filter p).map Row.interval) w now =
      spent task (rows.map Row.interval) w now := by
  induction rows with
  | nil => rfl
  | cons r rows ih =>
    have hrest := ih fun r' hr' => hp r' (List.mem_cons_of_mem _ hr')
    cases hr : p r with
    | true =>
      rw [List.filter_cons_of_pos hr, List.map_cons, List.map_cons, spent_cons, spent_cons, hrest]
    | false =>
      have hnot : ¬ r.interval.Meets w now := fun hmeets => by
        rw [hp r List.mem_cons_self hmeets] at hr
        cases hr
      rw [List.filter_cons_of_neg (by simp [hr]), hrest, List.map_cons, spent_cons,
        Interval.share_of_not_meets hnot, ite_self, Nat.zero_add]

theorem Tallies.of_filter {totals : List TaskTime} {p : Row → Bool}
    (hp : ∀ r ∈ rows, r.interval.Meets w now → p r = true)
    (h : Tallies totals ((rows.filter p).map Row.interval) w now) :
    Tallies totals (rows.map Row.interval) w now where
  nodup := h.nodup
  earned := by
    intro r hr
    obtain ⟨i, hi, hir⟩ := h.earned r hr
    exact ⟨i, List.map_subset _ (List.filter_subset_self _) hi, hir⟩
  micros := by
    intro r hr
    rw [h.micros r hr, spent_filter hp]
  complete := by
    intro i hi hmeets
    obtain ⟨r, hr, rfl⟩ := List.mem_map.mp hi
    exact h.complete _ (List.mem_map_of_mem (List.mem_filter.mpr ⟨hr, hp r hr hmeets⟩)) hmeets

/-- The intervals of a user. -/
def ofUser (user : Int) (rows : List Row) : List Interval :=
  (rows.filter (Row.ofUser (some (.int user)))).map Row.interval

theorem user_of_ofUser {user : Int} {r : Row} :
    r.ofUser (some (.int user)) = true ↔ r.user = .int user := by
  rw [Row.ofUser, beq_iff_eq, Option.some.injEq, eq_comm]

theorem mem_ofUser {user : Int} {i : Interval} :
    i ∈ ofUser user rows ↔ ∃ r ∈ rows, r.user = .int user ∧ r.interval = i := by
  simp only [ofUser, List.mem_map, List.mem_filter, user_of_ofUser, and_assoc]

/-- A report has a row for a task of its user exactly if a stored interval of the task meets the window. -/
theorem Tallies.task_mem_iff {totals : List TaskTime} {user : Int}
    (h : Tallies totals (ofUser user rows) w now) (task : Ident) :
    (∃ row ∈ totals, row.task = task) ↔
      ∃ r ∈ rows, r.key = ⟨.int user, task⟩ ∧ r.interval.Meets w now := by
  constructor
  · rintro ⟨row, hrow, rfl⟩
    obtain ⟨i, hi, hitask, hmeets⟩ := h.earned row hrow
    obtain ⟨r, hr, hmine, rfl⟩ := mem_ofUser.mp hi
    refine ⟨r, hr, ?_, hmeets⟩
    rw [← hitask]
    exact congrArg (Key.mk · r.task) hmine
  · rintro ⟨r, hr, hkey, hmeets⟩
    obtain ⟨row, hrow, htask⟩ := h.complete r.interval
      (mem_ofUser.mpr ⟨r, hr, congrArg Key.user hkey, rfl⟩) hmeets
    exact ⟨row, hrow, htask.trans (congrArg Key.task hkey)⟩

/-- A report over a window that is not empty adds up what it reads. -/
theorem run_of_read {db db₁ : Database} {user : Option Ident} {start stop : Moment}
    (hstart : start.isAware = true) (hstop : stop.isAware = true) (hlt : start.instant < stop.instant)
    (hread : Primitive.intervalsOverlapping user start stop db = (.ok is, db₁)) (now : Moment) :
    ∃ db', run Database.intervals now user start stop db = (aggregate is ⟨start, stop⟩ now, db') ∧
      db₁.Alike db' := by
  have hread' : Database.intervals.intervalsOverlapping user start stop db = _ := hread
  obtain ⟨hcheck, hnonempty⟩ := Window.check_of_lt hstart hstop hlt
  obtain ⟨db', hfinish, hnoted⟩ := finish_eq user ⟨start, stop⟩ is now db₁
  refine ⟨db', ?_, hnoted⟩
  simp only [run, hcheck]
  rw [Run.bind_of_ok (rfl : Run.ofExcept (.ok _) db = _), if_neg (by simp [hnonempty]),
    Run.bind_of_ok hread', hfinish]

/-- A report over a window between storable bounds adds up the rows of its user that reach into the window,
    in the order of their starts. -/
theorem run_of_fits {db : Database} (h : db.Ready rows) {user : Int}
    (huser : Integer.fits64 user = true) {start stop : Moment} {first last : Instant}
    (hstart : Instant.ofMoment start = .ok first) (hstop : Instant.ofMoment stop = .ok last)
    (hlt : start.instant < stop.instant) (now : Moment) :
    ∃ db', run Database.intervals now (some (.int user)) start stop db =
        (aggregate (((rows.filter fun r => r.ofUser (some (.int user)) && r.reaches first last).mergeSort
          fun a b => a.started.micros ≤ b.started.micros).map Row.interval) ⟨start, stop⟩ now, db') ∧
      db.Alike db' := by
  obtain ⟨db₁, hread, hlike⟩ := Primitive.intervalsOverlapping_of_fits h huser hstart hstop
  obtain ⟨db', hrun, hnoted⟩ := run_of_read (Instant.ofMoment_eq_ok_iff.mp hstart).1
    (Instant.ofMoment_eq_ok_iff.mp hstop).1 hlt hread now
  exact ⟨db', hrun, hlike.trans hnoted⟩

/-- A report over a window that is not empty fails as its read does. -/
theorem run_of_unread {db db₁ : Database} {user : Option Ident} {start stop : Moment} {e : Fault}
    (hstart : start.isAware = true) (hstop : stop.isAware = true) (hlt : start.instant < stop.instant)
    (hread : Primitive.intervalsOverlapping user start stop db = (.error e, db₁)) (now : Moment) :
    run Database.intervals now user start stop db = (.error e, db₁) := by
  have hread' : Database.intervals.intervalsOverlapping user start stop db = _ := hread
  obtain ⟨hcheck, hnonempty⟩ := Window.check_of_lt hstart hstop hlt
  simp only [run, hcheck]
  rw [Run.bind_of_ok (rfl : Run.ofExcept (.ok _) db = _), if_neg (by simp [hnonempty]),
    Run.bind_of_error hread']

/-- A report for a user outside 64 bits fails. -/
theorem run_of_wide {db : Database} (h : db.Ready rows) {user : Int}
    (hwide : Integer.fits64 user = false) {start stop : Moment} (hstart : start.Storable)
    (hstop : stop.Storable) (hlt : start.instant < stop.instant) (now : Moment) :
    (run Database.intervals now (some (.int user)) start stop db).1 = .error .tooWide := by
  obtain ⟨_, hread, _⟩ := Primitive.intervalsOverlapping_of_wide h hwide hstart hstop
  rw [run_of_unread hstart.1 hstop.1 hlt hread]

/-- Of the intervals of a user a read leaves out what has nothing to do with its window. -/
theorem intervalsOverlapping_reads {db : Database} (h : db.Ready rows) {user : Int}
    (huser : Integer.fits64 user = true) {start stop : Moment} (hstart : start.Storable)
    (hstop : stop.Storable) :
    ∃ is db', Primitive.intervalsOverlapping (some (.int user)) start stop db = (.ok is, db') ∧
      db.Alike db' ∧ (∀ i ∈ is, i ∈ ofUser user rows) ∧
      ∀ now,
        (∀ totals, Tallies totals is ⟨start, stop⟩ now →
          Tallies totals (ofUser user rows) ⟨start, stop⟩ now) ∧
        ∀ task, spent task is ⟨start, stop⟩ now = spent task (ofUser user rows) ⟨start, stop⟩ now := by
  obtain ⟨first, hfirst⟩ := Instant.storable_iff.mp hstart
  obtain ⟨last, hlast⟩ := Instant.storable_iff.mp hstop
  obtain ⟨db', hread, hlike⟩ := Primitive.intervalsOverlapping_of_fits h huser hfirst hlast
  -- The rows that are read, in the order in which they were stored.
  let mine := rows.filter (Row.ofUser (some (.int user)))
  let found := mine.filter (Row.reaches first last)
  have hfound : (rows.filter fun r => r.ofUser (some (.int user)) && r.reaches first last) = found := by
    rw [← List.filter_filter]
    exact List.filter_comm _ _ _
  rw [hfound] at hread
  let sorted := found.mergeSort fun a b => a.started.micros ≤ b.started.micros
  have hperm : (sorted.map Row.interval).Perm (found.map Row.interval) :=
    (List.mergeSort_perm found _).map Row.interval
  refine ⟨_, db', hread, hlike, ?_, fun now => ?_⟩
  · intro i hi
    exact List.map_subset _ (List.filter_subset_self _) (hperm.mem_iff.mp hi)
  · have hreaches : ∀ r ∈ mine, r.interval.Meets ⟨start, stop⟩ now → r.reaches first last = true :=
      fun r _ => Row.reaches_of_meets (Instant.ofMoment_eq_ok_iff.mp hfirst).2
        (Instant.ofMoment_eq_ok_iff.mp hlast).2
    refine ⟨fun totals htallies => (htallies.of_perm hperm).of_filter hreaches, fun task => ?_⟩
    rw [spent, ((hperm.filter _).map _).sum_eq]
    exact spent_filter hreaches task

/-- A report adds up some of the intervals of its user; the others have nothing to do with the window. -/
theorem run_reads {db : Database} (h : db.Ready rows) {user : Int}
    (huser : Integer.fits64 user = true) {start stop : Moment} (hstart : start.Storable)
    (hstop : stop.Storable) (hlt : start.instant < stop.instant) (now : Moment) :
    ∃ is db', run Database.intervals now (some (.int user)) start stop db =
        (aggregate is ⟨start, stop⟩ now, db') ∧ db.Alike db' ∧
      (∀ i ∈ is, i ∈ ofUser user rows) ∧
      (∀ totals, Tallies totals is ⟨start, stop⟩ now →
        Tallies totals (ofUser user rows) ⟨start, stop⟩ now) ∧
      ∀ task, spent task is ⟨start, stop⟩ now =
        spent task (ofUser user rows) ⟨start, stop⟩ now := by
  obtain ⟨is, db₁, hread, hlike, hmine, hall⟩ := intervalsOverlapping_reads h huser hstart hstop
  obtain ⟨db', hrun, hnoted⟩ := run_of_read hstart.1 hstop.1 hlt hread now
  exact ⟨is, db', hrun, hlike.trans hnoted, hmine, hall now⟩

/-- Such a report tells the times of all intervals of its user in order, although it reads only some of
    them, or one of these times is too long. -/
theorem run_cases {db : Database} (h : db.Ready rows) {user : Int}
    (huser : Integer.fits64 user = true) {start stop : Moment} (hstart : start.Storable) (hstop : stop.Storable)
    (hlt : start.instant < stop.instant) (hnow : now.isAware = true)
    (hstarted : ∀ r ∈ rows, r.user = .int user → r.stopped = none →
      (r.started.micros : Int) ≤ now.instant)
    (hints : ∀ r ∈ rows, r.user = .int user → ∃ n : Int, r.task = .int n) :
    ∃ answer db', run Database.intervals now (some (.int user)) start stop db = (answer, db') ∧
      db.Alike db' ∧
      ((∃ totals, answer = .ok totals ∧ Tallies totals (ofUser user rows) ⟨start, stop⟩ now ∧
          totals.Pairwise fun a b => precedes a b = true) ∨
        ∃ e task, answer = .error (.tooLong e) ∧
          Duration.greatest < spent task (ofUser user rows) ⟨start, stop⟩ now) := by
  obtain ⟨is, db', hrun, hlike, hmine, htallies, hspent⟩ := run_reads h huser hstart hstop hlt now
  have hw : Window.Sane ⟨start, stop⟩ := ⟨hstart.1, hstop.1, hlt.le⟩
  have hsane : ∀ i ∈ is, i.Sane now := by
    intro i hi
    obtain ⟨r, hr, huserRow, rfl⟩ := mem_ofUser.mp (hmine i hi)
    exact Row.sane_interval (fun hopen => ⟨hnow, hstarted r hr huserRow hopen⟩)
      (h.consistent.in_order r hr)
  have hints' : ∀ i ∈ is, ∃ n : Int, i.task = .int n := by
    intro i hi
    obtain ⟨r, hr, huserRow, rfl⟩ := mem_ofUser.mp (hmine i hi)
    exact hints r hr huserRow
  refine ⟨_, db', hrun, hlike, ?_⟩
  obtain ⟨totals, htotals, hfine⟩ | ⟨e, task, htotals, hlong⟩ := aggregate_cases hw hsane hints'
  · exact .inl ⟨totals, htotals, htallies totals hfine,
      pairwise_of_aggregate htotals (hfine.ints hints')⟩
  · exact .inr ⟨e, task, htotals, hspent task ▸ hlong⟩

/-- A report over an empty window reads nothing and has no rows. -/
theorem run_of_empty (db : Database) (user : Option Ident) (now : Moment) {start stop : Moment}
    (hstart : start.isAware = true) (hstop : stop.isAware = true)
    (hsame : start.instant = stop.instant) :
    run Database.intervals now user start stop db = (.ok [], db) := by
  have hcheck : Window.check start stop = .ok ⟨start, stop⟩ := by
    simp [Window.check, hstart, hstop, hsame]
  have hempty : Window.isEmpty ⟨start, stop⟩ = true := by
    simp [Window.isEmpty, Moment.same, Moment.sameKind, hstart, hstop, hsame]
  simp only [run, hcheck]
  rw [Run.bind_of_ok (rfl : Run.ofExcept (.ok _) db = _), if_pos hempty]
  rfl

/-- The microseconds between two bounds and before `now` that belong to some row of a key. -/
def covered (rows : List Row) (key : Key) (start stop now : Moment) : Finset Int :=
  (start.upTo stop).filter fun t => t < now.instant ∧ ∃ r ∈ rows, r.key = key ∧ r.Covers t

theorem card_covered_le (rows : List Row) (key : Key) {start stop : Moment}
    (hle : start.instant ≤ stop.instant) (now : Moment) :
    ((covered rows key start stop now).card : Int) ≤ stop.instant - start.instant := by
  have hcard := Finset.card_filter_le (start.upTo stop) fun t =>
    t < now.instant ∧ ∃ r ∈ rows, r.key = key ∧ r.Covers t
  rw [Moment.card_upTo] at hcard
  have htotal : (covered rows key start stop now).card ≤ (stop.instant - start.instant).toNat := hcard
  omega

variable {user : Int} {start stop : Moment}

theorem worked_ofUser (hpast : ∀ r ∈ rows, r.user = .int user → r.Past now) (task : Ident)
    (start stop : Moment) :
    worked task (ofUser user rows) ⟨start, stop⟩ now =
      covered rows ⟨.int user, task⟩ start stop now := by
  ext t
  rw [worked, covered, Finset.mem_filter, Finset.mem_filter]
  refine and_congr_right fun _ => ⟨?_, ?_⟩
  · rintro ⟨_, hi, rfl, ht⟩
    obtain ⟨r, hr, huserRow, rfl⟩ := mem_ofUser.mp hi
    obtain ⟨hcovers, hnow⟩ := (Row.mem_span_iff (hpast r hr huserRow) t).mp ht
    exact ⟨hnow, r, hr, congrArg (Key.mk · _) huserRow, hcovers⟩
  · rintro ⟨hnow, r, hr, hkey, hcovers⟩
    have huserRow : r.user = .int user := congrArg Key.user hkey
    exact ⟨r.interval, mem_ofUser.mpr ⟨r, hr, huserRow, rfl⟩, congrArg Key.task hkey,
      (Row.mem_span_iff (hpast r hr huserRow) t).mpr ⟨hcovers, hnow⟩⟩

/-- No microsecond belongs to two rows of a key. -/
def NoneTwice (key : Key) (rows : List Row) : Prop :=
  rows.Pairwise fun a b => a.key = key → b.key = key → ∀ t, ¬ (a.Covers t ∧ b.Covers t)

theorem noneTwice_of_successive (h : Successive rows) (key : Key) : NoneTwice key rows := by
  refine h.imp fun hturn hx hy t hboth => ?_
  obtain ⟨ended, hended, hle⟩ := hturn (hx.trans hy.symm)
  have hbefore := hboth.1.2 ended hended
  have hafter := hboth.2.1
  omega

theorem NoneTwice.apart {task : Ident} (h : NoneTwice ⟨.int user, task⟩ rows)
    (hpast : ∀ r ∈ rows, r.user = .int user → r.Past now) : Apart task (ofUser user rows) now := by
  unfold Apart ofUser
  rw [List.pairwise_map]
  refine (List.Pairwise.filter _ h).imp_of_mem fun {a b} ha hb hab haTask hbTask => ?_
  obtain ⟨ha, haUser⟩ := List.mem_filter.mp ha
  obtain ⟨hb, hbUser⟩ := List.mem_filter.mp hb
  rw [user_of_ofUser] at haUser hbUser
  have hkey : ∀ r : Row, r.user = .int user → r.interval.task = task → r.key = ⟨.int user, task⟩ := by
    rintro r huser rfl
    exact congrArg (Key.mk · r.task) huser
  rw [Finset.disjoint_left]
  intro t hta htb
  exact hab (hkey a haUser haTask) (hkey b hbUser hbTask) t
    ⟨((Row.mem_span_iff (hpast a ha haUser) t).mp hta).1,
      ((Row.mem_span_iff (hpast b hb hbUser) t).mp htb).1⟩

/-- While no microsecond belongs to two rows of a key, the time of its task is the number of
    microseconds that belong to its rows. -/
theorem NoneTwice.spent_eq {task : Ident} (h : NoneTwice ⟨.int user, task⟩ rows)
    (hpast : ∀ r ∈ rows, r.user = .int user → r.Past now) (start stop : Moment) :
    spent task (ofUser user rows) ⟨start, stop⟩ now =
      (covered rows ⟨.int user, task⟩ start stop now).card := by
  rw [spent_eq_card (h.apart hpast), worked_ofUser hpast]

/-- A window is not too long for a report. -/
theorem card_covered_le_greatest (rows : List Row) (key : Key) (hstart : start.Storable)
    (hstop : stop.Storable) (hle : start.instant ≤ stop.instant) (now : Moment) :
    ((covered rows key start stop now).card : Int) ≤ Duration.greatest := by
  have hcard := card_covered_le rows key hle now
  have hlow := hstart.2.1
  have hhigh := hstop.2.2
  have hcalendar : (calendarMicros : Int) ≤ Duration.greatest := by decide
  omega

end Report
end Worklog
