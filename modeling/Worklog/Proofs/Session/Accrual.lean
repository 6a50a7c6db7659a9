import Worklog.Proofs.Report.Worked
import Worklog.Proofs.Session.Apart

namespace Worklog

variable {now later : Moment} {w : Window}

namespace Interval

variable {i : Interval}

theorem effectiveEnd_of_isOpen (h : i.isOpen = true) (now : Moment) : i.effectiveEnd now = now := by
  rw [effectiveEnd, Option.isNone_iff_eq_none.mp h, Option.getD_none]

theorem effectiveEnd_of_not_isOpen (h : ¬ i.isOpen = true) (now later : Moment) :
    i.effectiveEnd later = i.effectiveEnd now := by
  unfold effectiveEnd
  cases hstopped : i.stopped with
  | none => exact absurd (Option.isNone_iff_eq_none.mpr hstopped) h
  | some ended => rfl

/-- An open interval gains what has passed of the window. -/
theorem share_accrues (hstarted : i.isOpen = true → i.started.instant ≤ now.instant)
    (hle : now.instant ≤ later.instant) (w : Window) :
    i.share w later = i.share w now + if i.isOpen then (now.upTo later ∩ w.span).card else 0 := by
  by_cases hopen : i.isOpen = true
  · have hstart := hstarted hopen
    rw [if_pos hopen, Window.span, Moment.card_upTo_inter, share_eq, share_eq,
      effectiveEnd_of_isOpen hopen, effectiveEnd_of_isOpen hopen]
    omega
  · rw [if_neg hopen, share_eq, share_eq, effectiveEnd_of_not_isOpen hopen now later, Nat.add_zero]

/-- Whether an interval meets a window is settled when the window has passed. -/
theorem meets_iff_of_passed (hw : w.start.instant < w.stop.instant) (hpassed : w.stop.instant ≤ now.instant)
    (hle : now.instant ≤ later.instant) (i : Interval) : i.Meets w later ↔ i.Meets w now := by
  unfold Meets
  by_cases hopen : i.isOpen = true
  · rw [effectiveEnd_of_isOpen hopen, effectiveEnd_of_isOpen hopen]
    omega
  · rw [effectiveEnd_of_not_isOpen hopen now later]

theorem share_of_passed (hpassed : w.stop.instant ≤ now.instant) (hle : now.instant ≤ later.instant)
    (i : Interval) : i.share w later = i.share w now := by
  rw [share_eq, share_eq]
  by_cases hopen : i.isOpen = true
  · rw [effectiveEnd_of_isOpen hopen, effectiveEnd_of_isOpen hopen]
    omega
  · rw [effectiveEnd_of_not_isOpen hopen now later]

end Interval

theorem Row.isOpen_interval {r : Row} : r.interval.isOpen = true ↔ r.stopped = none := by
  rw [Interval.isOpen, Option.isNone_iff_eq_none]
  exact Option.map_eq_none_iff

namespace Report

variable {is : List Interval} {rows : List Row} {totals : List TaskTime} {user : Int}

/-- Every open interval of a task gains what has passed of the window. -/
theorem spent_accrues (hstarted : ∀ i ∈ is, i.isOpen = true → i.started.instant ≤ now.instant)
    (hle : now.instant ≤ later.instant) (task : Ident) (w : Window) :
    spent task is w later = spent task is w now +
      is.countP (fun i => i.task = task ∧ i.isOpen) * (now.upTo later ∩ w.span).card := by
  induction is with
  | nil => simp [spent]
  | cons i is ih =>
    have hrest := ih fun j hj => hstarted j (List.mem_cons_of_mem _ hj)
    have hgain := Interval.share_accrues (hstarted i List.mem_cons_self) hle w
    rw [spent_cons, spent_cons, hrest, hgain, List.countP_cons]
    by_cases htask : i.task = task
    · by_cases hopen : i.isOpen = true
      · simp only [htask, hopen, if_true, and_self, decide_true, Nat.add_mul, Nat.one_mul]
        omega
      · simp only [htask, hopen, Bool.false_eq_true, if_true, if_false, and_false, decide_false, Nat.add_zero]
        omega
    · simp only [htask, if_false, false_and, decide_false, Bool.false_eq_true, Nat.add_zero, Nat.zero_add]

/-- In a consistent table a task of a user has one open interval or none. -/
theorem countP_open (h : Consistent rows) (user : Int) (task : Ident) :
    (ofUser user rows).countP (fun i => i.task = task ∧ i.isOpen) =
      if ∃ r ∈ rows, r.key = ⟨.int user, task⟩ ∧ r.stopped = none then 1 else 0 := by
  have hfor : ∀ r : Row, r.isOpenFor (⟨.int user, task⟩ : Key).ref = true ↔
      r.key = ⟨.int user, task⟩ ∧ r.stopped = none := fun r =>
    Row.isOpenFor_iff.trans (and_congr_left fun _ => ⟨Key.ref_injective, congrArg Key.ref⟩)
  have hcount : (ofUser user rows).countP (fun i => i.task = task ∧ i.isOpen) =
      (rows.filter (Row.isOpenFor (⟨.int user, task⟩ : Key).ref)).length := by
    rw [ofUser, List.countP_map, List.countP_filter, ← List.countP_eq_length_filter]
    refine List.countP_congr fun r _ => ?_
    rw [hfor, Bool.and_eq_true, user_of_ofUser, Function.comp_apply, decide_eq_true_eq, Row.isOpen_interval,
      Row.key, Key.mk.injEq]
    constructor
    · rintro ⟨⟨htask, hopen⟩, huser⟩
      exact ⟨⟨huser, htask⟩, hopen⟩
    · rintro ⟨⟨huser, htask⟩, hopen⟩
      exact ⟨⟨htask, hopen⟩, huser⟩
  rw [hcount]
  obtain hnone | ⟨r, hr, hopen, hone⟩ := h.filter_open (⟨.int user, task⟩ : Key).ref
  · rw [hnone, if_neg, List.length_nil]
    rintro ⟨r, hr, hopen⟩
    exact List.filter_eq_nil_iff.mp hnone r hr ((hfor r).mpr hopen)
  · rw [hone, if_pos ⟨r, hr, (hfor r).mp hopen⟩, List.length_singleton]

/-- A later report tells of a task with an open interval what has passed of the window besides. -/
theorem Tallies.timeOf_accrues {totals' : List TaskTime} (h : Tallies totals (ofUser user rows) w now)
    (h' : Tallies totals' (ofUser user rows) w later) (hfine : Consistent rows)
    (hpast : ∀ r ∈ rows, r.Past now) (hle : now.instant ≤ later.instant) (task : Ident) :
    timeOf task totals' = timeOf task totals +
      if ∃ r ∈ rows, r.key = ⟨.int user, task⟩ ∧ r.stopped = none then
        ((now.upTo later ∩ w.span).card : Int)
      else 0 := by
  have hstarted : ∀ i ∈ ofUser user rows, i.isOpen = true → i.started.instant ≤ now.instant := by
    intro i hi _
    obtain ⟨r, hr, _, rfl⟩ := mem_ofUser.mp hi
    exact r.instant_started ▸ (hpast r hr).started
  rw [h.timeOf_eq, h'.timeOf_eq, spent_accrues hstarted hle, countP_open hfine]
  split
  · rw [Nat.one_mul, Nat.cast_add]
  · rw [Nat.zero_mul, Nat.add_zero, Int.add_zero]

/-- What is told of a window is settled when it has passed. -/
theorem Tallies.of_passed (h : Tallies totals is w later) (hw : w.start.instant < w.stop.instant)
    (hpassed : w.stop.instant ≤ now.instant) (hle : now.instant ≤ later.instant) :
    Tallies totals is w now where
  nodup := h.nodup
  earned := by
    intro r hr
    obtain ⟨i, hi, htask, hmeets⟩ := h.earned r hr
    exact ⟨i, hi, htask, (i.meets_iff_of_passed hw hpassed hle).mp hmeets⟩
  micros := by
    intro r hr
    have hshare : ∀ i : Interval, i.share w later = i.share w now := Interval.share_of_passed hpassed hle
    rw [h.micros r hr, spent, spent, funext hshare]
  complete := fun i hi hmeets => h.complete i hi ((i.meets_iff_of_passed hw hpassed hle).mpr hmeets)

end Report

/-- What calls that follow each other have stored: intervals of integer keys, for each key one after the
    other. -/
structure Database.Logged (db : Database) (rows : List Row) : Prop where
  whole : db.ledger.Whole rows
  ints : ∀ r ∈ rows, ∃ user task : Int, r.key = .ints user task
  successive : Successive rows

namespace Database.Logged

variable {db : Database} {rows : List Row}

theorem int_task (h : db.Logged rows) : ∀ r ∈ rows, ∃ n : Int, r.task = .int n := by
  intro r hr
  obtain ⟨_, task, hkey⟩ := h.ints r hr
  exact ⟨task, congrArg Key.task hkey⟩

/-- Without disturbances a call finds the database ready. -/
theorem ready (h : db.Logged rows) :
    Ready { db with accesses := 0, disruption := fun _ _ => none } rows :=
  ⟨fun _ _ => rfl, h.whole.openUnique, h.whole.stored, h.whole.consistent⟩

end Database.Logged

namespace Errand

variable {db : Database} {rows : List Row} {e : Errand} {errands : List Errand}

/-- What a call may do to the ledger: nothing, or it starts an interval of an integer key or ends one, as of
    the time that it reads from its clock. -/
theorem run_cases (h : db.ledger.Whole rows) (e : Errand) :
    (e.run db).2.ledger = db.ledger ∨
    (∃ user task prepared row, Ledger.insertRow prepared e.fresh (Key.ints user task).ref e.now none
      db.ledger = .ok (row, (e.run db).2.ledger)) ∨
    ∃ id n, Ledger.closeRow id e.now db.ledger = .ok (n, (e.run db).2.ledger) := by
  obtain ⟨ask, fresh, now, trouble⟩ := e
  let before : Database := { db with accesses := 0, disruption := trouble }
  cases ask with
  | start user task =>
    rcases hstart : Session.start Database.intervals fresh now (Key.ints user task).ref before with ⟨r, db'⟩
    have hafter : (run ⟨.start user task, fresh, now, trouble⟩ db).2 = db' := congrArg Prod.snd hstart
    rw [hafter]
    obtain hsame | ⟨prepared, row, hinsert⟩ := Session.ledger_after_start hstart
    · exact .inl hsame
    · exact .inr (.inl ⟨user, task, prepared, row, hinsert⟩)
  | stop user task =>
    rcases hstop : Session.stop Database.intervals now (Key.ints user task).ref before with ⟨r, db'⟩
    have hafter : (run ⟨.stop user task, fresh, now, trouble⟩ db).2 = db' := congrArg Prod.snd hstop
    have hwhole : before.ledger.Whole rows := h
    rw [hafter]
    exact (Session.ledger_after_stop hwhole hstop).imp_right .inr
  | report user first last => exact .inl (ledger_of_report rfl db)

/-- A call keeps the intervals of every key one after the other, if its clock is not behind their times, and
    is not ahead of their times in the end. -/
theorem logged_run (h : db.Logged rows) (hpast : ∀ r ∈ rows, r.Past e.now) :
    ∃ later, (e.run db).2.Logged later ∧ ∀ r ∈ later, r.Past e.now := by
  obtain hsame | ⟨user, task, _, row, hinsert⟩ | ⟨id, n, hclose⟩ := run_cases h.whole e
  · exact ⟨rows, ⟨hsame ▸ h.whole, h.ints, h.successive⟩, hpast⟩
  · obtain ⟨_, hold, hledger, _, hstarted, hstopped, _, hfree, _⟩ := Ledger.insertRow_eq_ok hinsert
    obtain rfl := Option.some.inj (hold.symm.trans h.whole.stored)
    have hkey : row.key = .ints user task := Ledger.key_of_insertRow_ints hinsert
    have hopen : row.stopped = none := (Except.ok.inj hstopped).symm
    have hinstant := (Instant.ofMoment_eq_ok_iff.mp hstarted).2
    have hwhole := h.whole.touched (.inserted hinsert) (congrArg Ledger.rows hledger)
    refine ⟨_, ⟨hwhole, ?_, ?_⟩, ?_⟩
    · intro r hr
      obtain hr | hr := List.mem_append.mp hr
      · exact h.ints r hr
      · exact ⟨user, task, List.mem_singleton.mp hr ▸ hkey⟩
    · exact h.successive.append hpast hinstant (hfree h.whole.openUnique (Row.isOpen_iff.mpr hopen))
    · intro r hr
      obtain hr | hr := List.mem_append.mp hr
      · exact hpast r hr
      · exact List.mem_singleton.mp hr ▸ Row.past_of_open hinstant.le hopen
  · obtain ⟨_, ended, hold, hended, _, _, hledger⟩ := Ledger.closeRow_eq_ok hclose
    obtain rfl := Option.some.inj (hold.symm.trans h.whole.stored)
    have hinstant := (Instant.ofMoment_eq_ok_iff.mp hended).2
    have hwhole := h.whole.touched (.ended hclose) (congrArg Ledger.rows hledger)
    refine ⟨_, ⟨hwhole, ?_, h.successive.closing id ended⟩, ?_⟩
    · intro r' hr'
      obtain ⟨r, hr, rfl⟩ := List.mem_map.mp hr'
      rw [Row.closing_key]
      exact h.ints r hr
    · intro r' hr'
      obtain ⟨r, hr, rfl⟩ := List.mem_map.mp hr'
      exact (hpast r hr).closing id hinstant.le

/-- So do calls that follow each other by a clock that does not go back. -/
theorem logged_after (h : db.Logged rows) (hpast : ∀ e ∈ errands, ∀ r ∈ rows, r.Past e.now)
    (hclock : errands.Pairwise fun e e' => e.now.instant ≤ e'.now.instant) :
    ∃ later, (after db errands).Logged later := by
  induction errands generalizing db rows with
  | nil => exact ⟨rows, h⟩
  | cons e rest ih =>
    obtain ⟨hfirst, hrest⟩ := List.pairwise_cons.mp hclock
    obtain ⟨later, hlater, hlaterPast⟩ := logged_run h (hpast e List.mem_cons_self)
    exact ih hlater (fun e' he' r hr => (hlaterPast r hr).mono (hfirst e' he')) hrest

/-- Calls that start nothing and stop nothing leave the ledger as it is. -/
theorem ledger_of_reports (h : ∀ e ∈ errands, e.ask.key? = none) (db : Database) :
    (after db errands).ledger = db.ledger := by
  induction errands generalizing db with
  | nil => rfl
  | cons e rest ih =>
    have hreport : (e.run db).2.ledger = db.ledger := by
      cases hask : e.ask with
      | start _ _ | stop _ _ =>
        have hkey := h e List.mem_cons_self
        rw [hask] at hkey
        cases hkey
      | report _ _ _ => exact ledger_of_report hask db
    exact (ih (fun e' he' => h e' (List.mem_cons_of_mem _ he')) _).trans hreport

/-- A report that nothing disturbs. -/
def reporting (user : Int) (start stop now : Moment) : Errand :=
  { ask := .report user start stop, fresh := .blank, now }

theorem answer_of_reporting (user : Int) (start stop now : Moment) (db : Database) :
    ((reporting user start stop now).run db).1 = .times (Report.run Database.intervals now
      (some (.int user)) start stop { db with accesses := 0, disruption := fun _ _ => none }).1 := rfl

/-- A report of what calls that follow each other have stored, as of a time that is not before theirs. -/
theorem run_reporting (h : db.Logged rows) {user : Int} (huser : Integer.fits64 user = true)
    {start stop now : Moment} (hstart : start.Storable) (hstop : stop.Storable)
    (hlt : start.instant < stop.instant) (hnow : now.isAware = true) (hpast : ∀ r ∈ rows, r.Past now) :
    ∃ totals, ((reporting user start stop now).run db).1 = .times (.ok totals) ∧
      Report.Tallies totals (Report.ofUser user rows) ⟨start, stop⟩ now ∧
      totals.Pairwise fun a b => Report.precedes a b = true := by
  have hmine : ∀ r ∈ rows, r.user = .int user → r.Past now := fun r hr _ => hpast r hr
  obtain ⟨_, _, hrun, _, hanswer⟩ := Report.run_cases h.ready huser hstart hstop hlt hnow
    (fun r hr _ _ => (hpast r hr).started) fun r hr _ => h.int_task r hr
  obtain ⟨totals, rfl, htallies, hordered⟩ | ⟨_, task, _, hlong⟩ := hanswer
  · exact ⟨totals, by rw [answer_of_reporting, hrun], htallies, hordered⟩
  · rw [(Report.noneTwice_of_successive h.successive _).spent_eq hmine] at hlong
    exact absurd (Report.card_covered_le_greatest rows _ hstart hstop hlt.le now) (not_le.mpr hlong)

/-- Two reports over one window, the first after calls that have followed each other since the tables were
    empty, the second later, with nothing but reports between them. Of a task with an open interval the second
    tells more by the time between them that lies in the window, of any other task it tells the same, and
    when the window has passed before the first report, both are the same list. For a user that the database
    cannot number both fail. -/
theorem reports_accrue (hblank : db.ledger.Whole [])
    (hclock : errands.Pairwise fun e e' => e.now.instant ≤ e'.now.instant) (user : Int)
    {start stop now later : Moment} (hstart : start.Storable) (hstop : stop.Storable)
    (hlt : start.instant < stop.instant) (hnow : now.isAware = true) (hlater : later.isAware = true)
    (hle : now.instant ≤ later.instant)
    (hpast : ∀ r ∈ (after db errands).ledger.rows.getD [], r.Past now) {between : List Errand}
    (hbetween : ∀ e ∈ between, e.ask.key? = none) :
    let earlierReport := reporting user start stop now
    let answer := (earlierReport.run (after db errands)).1
    let answer' := ((reporting user start stop later).run
      (after db (errands ++ earlierReport :: between))).1
    (Integer.fits64 user = true → ∃ rows first second, (after db errands).ledger.rows = some rows ∧
      answer = .times (.ok first) ∧ answer' = .times (.ok second) ∧
      (∀ task, Report.timeOf task second = Report.timeOf task first +
        if ∃ r ∈ rows, r.key = ⟨.int user, task⟩ ∧ r.stopped = none then
          ((now.upTo later ∩ start.upTo stop).card : Int)
        else 0) ∧
      (stop.instant ≤ now.instant → second = first)) ∧
    (Integer.fits64 user = false →
      answer = .times (.error .tooWide) ∧ answer' = .times (.error .tooWide)) := by
  intro earlierReport answer answer'
  obtain ⟨rows, hlogged⟩ := logged_after ⟨hblank, by simp, .nil⟩ (by simp) hclock
  rw [hlogged.whole.stored, Option.getD_some] at hpast
  have hledger : (after db (errands ++ earlierReport :: between)).ledger = (after db errands).ledger := by
    rw [after, List.foldl_append]
    refine ledger_of_reports (fun e he => ?_) (after db errands)
    obtain rfl | he := List.mem_cons.mp he
    · rfl
    · exact hbetween e he
  have hlogged' : (after db (errands ++ earlierReport :: between)).Logged rows :=
    ⟨hledger ▸ hlogged.whole, hlogged.ints, hlogged.successive⟩
  have hpast' : ∀ r ∈ rows, r.Past later := fun r hr => (hpast r hr).mono hle
  constructor
  · intro huser
    obtain ⟨first, hfirst, htallies, hordered⟩ :=
      run_reporting hlogged huser hstart hstop hlt hnow hpast
    obtain ⟨second, hsecond, htallies', hordered'⟩ :=
      run_reporting hlogged' huser hstart hstop hlt hlater hpast'
    have hints : ∀ i ∈ Report.ofUser user rows, ∃ n : Int, i.task = .int n := by
      intro i hi
      obtain ⟨r, hr, _, rfl⟩ := Report.mem_ofUser.mp hi
      exact hlogged.int_task r hr
    exact ⟨rows, first, second, hlogged.whole.stored, hfirst, hsecond,
      htallies.timeOf_accrues htallies' hlogged.whole.consistent hpast hle, fun hpassed =>
      (htallies'.of_passed hlt hpassed hle).eq_of_pairwise htallies hints hordered' hordered⟩
  · intro hwide
    constructor
    · exact congrArg Answer.times (Report.run_of_wide hlogged.ready hwide hstart hstop hlt now)
    · exact congrArg Answer.times (Report.run_of_wide hlogged'.ready hwide hstart hstop hlt later)

/-- Two starts, of which the first is not stopped, a stop, and one that is cancelled at its commit. -/
def workday : List Errand :=
  let cancelled : Disruption := fun _ verb => if verb = .commit then some (.fault .cancelled) else none
  [{ ask := .start 1 1, fresh := .ofNat 0xa1, now := tick 1 },
    { ask := .start 1 2, fresh := .ofNat 0xa2, now := tick 2 },
    { ask := .stop 1 1, fresh := .ofNat 0xa3, now := tick 3, trouble := cancelled },
    { ask := .stop 1 2, fresh := .ofNat 0xa4, now := tick 4 }]

/-- Between microseconds 3 and 7 the open interval gains two from microsecond 5 to 8, and the closed one none.
    Of the window up to microsecond 5 both reports tell the same, and of a user without a number none does. -/
theorem workday_accrues :
    let report (user : Int) (stop now : Moment) := reporting user (tick 3) stop now
    let later (user : Int) (stop : Moment) := after {} (workday ++ [report user stop (tick 5)])
    (∃ first second, ((report 1 (tick 7) (tick 5)).run (after {} workday)).1 = .times (.ok first) ∧
      ((report 1 (tick 7) (tick 8)).run (later 1 (tick 7))).1 = .times (.ok second) ∧
      Report.timeOf (.int 1) second = Report.timeOf (.int 1) first + 2 ∧
      Report.timeOf (.int 2) second = Report.timeOf (.int 2) first) ∧
    ((report 1 (tick 5) (tick 8)).run (later 1 (tick 5))).1 =
      ((report 1 (tick 5) (tick 5)).run (after {} workday)).1 ∧
    ((report (2 ^ 63) (tick 5) (tick 8)).run (later (2 ^ 63) (tick 5))).1 = .times (.error .tooWide) := by
  intro report later
  have hstored : (after {} workday).ledger.rows =
      some [⟨.ofNat 0xa1, .int 1, .int 1, beat 1, none⟩,
        ⟨.ofNat 0xa2, .int 1, .int 2, beat 2, some (beat 4)⟩] := by
    decide +kernel
  have hpast : ∀ r ∈ (after {} workday).ledger.rows.getD [], r.Past (tick 5) := by
    have htimes : ∀ r ∈ (after {} workday).ledger.rows.getD [], (r.started.micros : Int) ≤ (tick 5).instant ∧
        ∀ ended ∈ r.stopped, (ended.micros : Int) ≤ (tick 5).instant := by
      rw [hstored]
      decide
    exact fun r hr => ⟨(htimes r hr).1, (htimes r hr).2⟩
  have hwhole : Ledger.Whole {} [] := ⟨rfl, rfl, .nil, by simp⟩
  have hclock : workday.Pairwise fun e e' => e.now.instant ≤ e'.now.instant := by decide
  have hstart : (tick 3).Storable := by decide
  have hlater : (tick 8).isAware = true := rfl
  have hnothing : ∀ e ∈ ([] : List Errand), e.ask.key? = none := by simp
  have haccrue (user : Int) (stop : Moment) (hstop : stop.Storable) (hlt : (tick 3).instant < stop.instant) :=
    reports_accrue hwhole hclock user hstart hstop hlt rfl hlater (by decide) hpast hnothing
  obtain ⟨rows, first, second, hrows, hfirst, hsecond, hgain, _⟩ :=
    (haccrue 1 (tick 7) (by decide) (by decide)).1 rfl
  obtain rfl := Option.some.inj (hrows.symm.trans hstored)
  obtain ⟨_, same, same', _, hsame, hsame', _, hpassed⟩ := (haccrue 1 (tick 5) (by decide) (by decide)).1 rfl
  refine ⟨⟨first, second, hfirst, hsecond, ?_, ?_⟩, ?_, ?_⟩
  · rw [hgain]
    rfl
  · rw [hgain]
    exact Int.add_zero _
  · rw [hsame', hsame, hpassed (by decide)]
  · exact ((haccrue (2 ^ 63) (tick 5) (by decide) (by decide)).2 rfl).2

end Errand
end Worklog
