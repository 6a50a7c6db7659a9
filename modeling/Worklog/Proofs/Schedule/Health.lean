import Worklog.Proofs.Report.Worked
import Worklog.Proofs.Schedule.History
import Worklog.Proofs.Session.Calm

namespace Worklog

/-- The user of a report is an integer of 64 bits. -/
def Report.Request.fits (r : Report.Request) : Bool :=
  match r.user with
  | some (.int user) => Integer.fits64 user
  | _ => false

theorem Report.Request.fits_iff {r : Request} :
    r.fits = true ↔ ∃ user : Int, r.user = some (.int user) ∧ Integer.fits64 user = true := by
  unfold fits
  split <;> simp_all

namespace Event

/-- The time on the clock after an event. -/
def time (now : Moment) : Event → Moment
  | clock m => m
  | ask _ | resume _ | read _ | add _ | use _ => now

/-- Starts, stops and reports whose keys and users are integers of 64 bits. -/
def fits : Event → Bool
  | ask (.start _ key) | ask (.stop key) => key.fits
  | read r => r.fits
  | clock _ | resume _ | add _ => true
  | use _ => false

/-- Starts, stops and reports on an aware clock that goes on from a time and never back. -/
def Onward : Moment → List Event → Prop
  | _, [] => True
  | now, e :: events =>
    e.fits = true ∧ (e.time now).isAware = true ∧ now.instant ≤ (e.time now).instant ∧
      Onward (e.time now) events

/-- Events on a clock that stands still come in between. -/
theorem onward_append {now : Moment} {still events : List Event} (haware : now.isAware = true)
    (hstill : ∀ e ∈ still, e.fits = true ∧ e.time now = now) (h : Onward now events) :
    Onward now (still ++ events) := by
  induction still with
  | nil => exact h
  | cons e still ih =>
    obtain ⟨hfits, htime⟩ := hstill e List.mem_cons_self
    have hrest := ih fun e he => hstill e (List.mem_cons_of_mem _ he)
    refine ⟨hfits, ?_⟩
    rw [htime]
    exact ⟨haware, le_rfl, hrest⟩

instance onwardDecidable : (now : Moment) → (events : List Event) → Decidable (Onward now events)
  | _, [] => instDecidableTrue
  | now, e :: events =>
    have := onwardDecidable (e.time now) events
    inferInstanceAs (Decidable (_ ∧ _ ∧ _ ∧ _))

end Event

/-- The key of the row is of 64-bit integers, and the row has started. -/
structure Row.Started (r : Row) (clock : Moment) : Prop where
  fits : r.key.ref.fits = true
  started : (r.started.micros : Int) ≤ clock.instant

theorem Row.Started.mono {r : Row} {clock later : Moment} (h : r.Started clock)
    (hle : clock.instant ≤ later.instant) : r.Started later := ⟨h.fits, h.started.trans hle⟩

theorem Row.Started.closing {r : Row} {clock : Moment} (h : r.Started clock) (id : Uuid)
    (ended : Instant) : (r.closing id ended).Started clock := by
  refine ⟨?_, ?_⟩
  · rw [closing_key]
    exact h.fits
  · rw [closing_started]
    exact h.started

/-- A row is found again later, by its id, with its start. -/
theorem Grows.kept {rows later : List Row} (h : Grows rows later) {r : Row} (hr : r ∈ rows) :
    ∃ r' ∈ later, r'.id = r.id ∧ r'.started = r.started := by
  obtain ⟨n, hn⟩ := List.mem_iff_getElem?.mp hr
  obtain ⟨r', hr', rfl | ⟨_, ended, rfl⟩⟩ := h n r hn
  · exact ⟨_, List.mem_of_getElem? hr', rfl, rfl⟩
  · exact ⟨_, List.mem_of_getElem? hr', rfl, rfl⟩

/-- What use is made of a ready database leaves it ready. -/
theorem Database.Ready.follows {db db' : Database} {rows : List Row} (h : db.Ready rows)
    (hfollows : db.Follows db') : ∃ later, db'.Ready later ∧ Grows rows later := by
  obtain ⟨hunique, later, hlater, hfine, hgrows⟩ :=
    hfollows.touched.history h.openUnique h.stored h.consistent
  refine ⟨later, ⟨fun n verb => ?_, hunique, hlater, hfine⟩, hgrows⟩
  rw [hfollows.disruption]
  exact h.calm n verb

/-- An ending after the starts of all rows with the id violates nothing. -/
theorem Ledger.closeRow_of_started {l : Ledger} {rows : List Row} {id : Uuid} {now : Moment}
    (hrows : l.rows = some rows)
    (horder : ∀ r ∈ rows, r.id = id → (r.started.micros : Int) ≤ now.instant) (c : Constraint) :
    closeRow id now l ≠ .error (.violates c) := by
  intro h
  obtain ⟨rows', ended, hrows', hend, r, hr, hopen, hearly⟩ := early_of_closeRow h
  obtain rfl := Option.some.inj (hrows.symm.trans hrows')
  have hle := horder r hr (Row.isOpenWith_iff.mp hopen).1
  rw [← (Instant.ofMoment_eq_ok_iff.mp hend).2] at hle
  exact absurd (Int.ofNat_le.mp hle) (Nat.not_le.mpr hearly)

namespace Session

variable {db : Database} {rows later : List Row} {key : KeyRef} {now clock : Moment}

/-- A start stores a row as of the time that it has read. -/
theorem started_of_start (hrows : db.ledger.rows = some rows) (hkey : key.fits = true)
    (hnow : now.instant ≤ clock.instant) (hstarted : ∀ r ∈ rows, r.Started clock) {fresh : Uuid}
    (hlater : (start Database.intervals fresh now key db).2.ledger.rows = some later) :
    ∀ r ∈ later, r.Started clock := by
  rcases hstart : start Database.intervals fresh now key db with ⟨answer, db'⟩
  obtain ⟨begun, db₁, hbegin, hlike, _⟩ := start_cases hstart
  rw [hstart, hlike.ledger] at hlater
  obtain ⟨_, ⟨prepared, row, hinsert, _⟩ | ⟨hledger, _⟩⟩ := Primitive.beginInterval_cases hbegin
  · have hkeyRef := Ledger.key_of_insertRow hkey hinsert
    obtain ⟨rows', hrows', hledger, _, hstart, _⟩ := Ledger.insertRow_eq_ok hinsert
    obtain rfl := Option.some.inj (hrows.symm.trans hrows')
    rw [hledger] at hlater
    cases hlater
    intro r hr
    obtain hr | hr := List.mem_append.mp hr
    · exact hstarted r hr
    · obtain rfl := List.mem_singleton.mp hr
      refine ⟨by rwa [hkeyRef], ?_⟩
      rw [(Instant.ofMoment_eq_ok_iff.mp hstart).2]
      exact hnow
  · rw [hledger, hrows] at hlater
    cases hlater
    exact hstarted

/-- The last step of a stop leaves the starts of all rows. -/
theorem started_of_finish (hrows : db.ledger.rows = some rows)
    (hstarted : ∀ r ∈ rows, r.Started clock) {i : Interval}
    (hlater : (finish Database.intervals key (some i) now db).2.ledger.rows = some later) :
    ∀ r ∈ later, r.Started clock := by
  rcases hfinish : finish Database.intervals key (some i) now db with ⟨answer, db'⟩
  obtain ⟨closed, db₁, hclose, hlike, _⟩ := finish_cases hfinish
  rw [hfinish, hlike.ledger] at hlater
  obtain ⟨_, ⟨_, _, _, hended, _⟩ | ⟨hledger, _⟩⟩ := Primitive.closeInterval_cases hclose
  · obtain ⟨rows', ended, hrows', _, _, _, hledger⟩ := Ledger.closeRow_eq_ok hended
    obtain rfl := Option.some.inj (hrows.symm.trans hrows')
    rw [hledger] at hlater
    cases hlater
    intro r' hr'
    obtain ⟨r, hr, rfl⟩ := List.mem_map.mp hr'
    exact (hstarted r hr).closing i.id ended
  · rw [hledger, hrows] at hlater
    cases hlater
    exact hstarted

/-- A stop has been turned away by the check that rows do not end before they start. -/
def Checked (answer : Except Fault Interval) : Prop :=
  ∃ f : Failure, answer = .error (.failure f) ∧ f.cause = .storage "close_interval" .constraint

/-- The last step of a stop after the start of the row that it found is not turned away. -/
theorem not_checked_of_finish (h : db.Ready rows) {i : Interval}
    (horder : ∀ r ∈ rows, r.id = i.id → (r.started.micros : Int) ≤ now.instant) :
    ¬ Checked (finish Database.intervals key (some i) now db).1 := by
  rintro ⟨f, hfailure, hcause⟩
  rcases hfinish : finish Database.intervals key (some i) now db with ⟨answer, db'⟩
  obtain ⟨closed, db₁, hclose, _, rfl⟩ := finish_cases hfinish
  rw [hfinish] at hfailure
  obtain ⟨_, ⟨_, row?, _, _, _, rfl⟩ | ⟨_, ⟨_, _, rfl⟩ | ⟨e, rfl, he⟩⟩⟩ :=
    Primitive.closeInterval_cases hclose
  · cases row? with
    | none =>
      cases hfailure
      cases hcause
    | some row => cases hfailure
  · cases hfailure
    cases hcause
  · obtain hraised | ⟨_, x, hx, rfl⟩ := he
    · exact absurd hraised (h.calm.not_raises e)
    · cases x with
      | time fault => cases fault <;> cases hfailure <;> cases hcause
      | noTable name =>
        cases hfailure
        cases hcause
      | tooWide => cases hfailure
      | full =>
        cases hfailure
        cases hcause
      | violates c => exact absurd hx (Ledger.closeRow_of_started h.stored horder c)

end Session

namespace Report

/-- How a report has ended, if the table held the rows when it read them: it tells times, its bounds make
    no window, one of them cannot be stored, or a task has more time than a duration holds. -/
inductive Outcome (rows : List Row) (f : Finished Request (List TaskTime)) : Prop where
  | told {totals : List TaskTime} (hanswer : f.answer = .ok totals)
  | noWindow {problem : RangeProblem}
      (hanswer : f.answer = .error (.failure (Failure.mk (.invalidRange problem) {})))
      (hbounds : ¬ Window.Sane ⟨f.request.start, f.request.stop⟩)
  | unstorable (hanswer : f.answer = .error (Primitive.overlapFailure f.request.user))
      (hwindow : Window.Sane ⟨f.request.start, f.request.stop⟩)
      (hbounds : ¬ (f.request.start.Storable ∧ f.request.stop.Storable))
  | tooLong {e : TooLong} {user : Int} {task : Ident} (hanswer : f.answer = .error (.tooLong e))
      (huser : f.request.user = some (.int user))
      (hlong : Duration.greatest <
        spent task (ofUser user rows) ⟨f.request.start, f.request.stop⟩ f.now)

/-- What a report under way has read tells the times of all rows of its user, and these have started. -/
structure Pending.Gathers (p : Pending) (rows : List Row) (user : Int) (clock : Moment) : Prop where
  asked : p.request.user = some (.int user)
  window : p.window = ⟨p.request.start, p.request.stop⟩
  sane : p.window.Sane
  consistent : Consistent rows
  started : ∀ r ∈ rows, r.Started clock
  mine : ∀ i ∈ p.intervals, i ∈ ofUser user rows
  spent : ∀ now task, spent task p.intervals p.window now = spent task (ofUser user rows) p.window now

/-- A report that adds up what it has gathered tells times, unless one of them is too long. -/
theorem Pending.Gathers.outcome {p : Pending} {rows : List Row} {user : Int} {clock : Moment}
    (h : p.Gathers rows user clock) (haware : clock.isAware = true) (ended : Nat) :
    Outcome rows ⟨p.request, p.began, ended, clock, aggregate p.intervals p.window clock⟩ := by
  have hsane : ∀ i ∈ p.intervals, i.Sane clock := by
    intro i hi
    obtain ⟨r, hr, _, rfl⟩ := mem_ofUser.mp (h.mine i hi)
    exact Row.sane_interval (fun _ => ⟨haware, (h.started r hr).started⟩)
      (h.consistent.in_order r hr)
  have hints : ∀ i ∈ p.intervals, ∃ n : Int, i.task = .int n := by
    intro i hi
    obtain ⟨r, hr, _, rfl⟩ := mem_ofUser.mp (h.mine i hi)
    obtain ⟨_, task, _, _, hkey⟩ := KeyRef.fits_iff.mp (h.started r hr).fits
    exact ⟨task, Option.some.inj (congrArg KeyRef.task hkey)⟩
  obtain ⟨totals, htotals, _⟩ | ⟨e, task, htotals, hlong⟩ := aggregate_cases h.sane hsane hints
  · exact .told htotals
  · rw [h.spent, h.window] at hlong
    exact .tooLong htotals h.asked hlong

end Report

namespace System

/-- What a start or a stop under way relies on: a start has read a time that has passed, and the row that
    a stop has found is there and started no later than the time that the stop has read. -/
def Timely (rows : List Row) (clock : Moment) : Session.Stage → Prop
  | .stamped _ key now => key.fits = true ∧ now.instant ≤ clock.instant
  | .found _ i => ∃ r ∈ rows, r.id = i.id
  | .timed _ i now => ∃ r ∈ rows, r.id = i.id ∧ (r.started.micros : Int) ≤ now.instant

theorem Timely.mono {rows later : List Row} {clock clock' : Moment} {stage : Session.Stage}
    (h : Timely rows clock stage) (hgrows : Grows rows later) (hle : clock.instant ≤ clock'.instant) :
    Timely later clock' stage := by
  cases stage with
  | stamped fresh key now => exact ⟨h.1, h.2.trans hle⟩
  | found key i =>
    obtain ⟨r, hr, hid⟩ := h
    obtain ⟨r', hr', hid', _⟩ := hgrows.kept hr
    exact ⟨r', hr', hid'.trans hid⟩
  | timed key i now =>
    obtain ⟨r, hr, hid, hstarted⟩ := h
    obtain ⟨r', hr', hid', hstarted'⟩ := hgrows.kept hr
    exact ⟨r', hr', hid'.trans hid, by rwa [hstarted']⟩

/-- What holds at any time, `seen` telling which rows the table held at the time of which event. -/
structure Healthy (seen : Nat → List Row → Prop) (s : System) (rows : List Row) : Prop where
  ready : s.database.Ready rows
  aware : s.clock.isAware = true
  started : ∀ r ∈ rows, r.Started s.clock
  pending : ∀ p ∈ s.pending, Timely rows s.clock p.stage
  finished : ∀ f ∈ s.finished, ∀ key, f.request = .stop key → ¬ Session.Checked f.answer
  gathered : ∀ p ∈ s.gathered, ∃ old user, seen p.began old ∧ p.Gathers old user s.clock
  reported : ∀ f ∈ s.reported, ∃ old, seen f.began old ∧ Report.Outcome old f

variable {seen : Nat → List Row → Prop} {s : System} {rows : List Row}

/-- A row that a stop has found started no later than the time that the stop has read. -/
theorem Healthy.started_of_timed (h : s.Healthy seen rows) {p : Session.Pending} (hp : p ∈ s.pending)
    {key : KeyRef} {i : Interval} {now : Moment} (hstage : p.stage = .timed key i now) :
    ∀ r ∈ rows, r.id = i.id → (r.started.micros : Int) ≤ now.instant := by
  have htimely := h.pending p hp
  rw [hstage] at htimely
  obtain ⟨found, hfound, hid, hstarted⟩ := htimely
  intro r hr hrId
  obtain rfl := h.ready.consistent.eq_of_id hfound hr (hid.trans hrId.symm)
  exact hstarted

/-- A system in which a start or a stop has come to its end. -/
private theorem Healthy.conclude (h : s.Healthy seen rows) {db : Database}
    (hfollows : s.database.Follows db)
    (hstarted : ∀ later, db.ledger.rows = some later → ∀ r ∈ later, r.Started s.clock)
    {pending : List Session.Pending} (hpending : ∀ p ∈ pending, p ∈ s.pending) (steps : Nat)
    {f : Finished Session.Request Interval}
    (hf : ∀ key, f.request = .stop key → ¬ Session.Checked f.answer) :
    ∃ later, Healthy seen { s with
      database := db, steps, pending, finished := s.finished ++ [f] } later := by
  obtain ⟨later, hready, hgrows⟩ := h.ready.follows hfollows
  refine ⟨later, { h with
    ready := hready, started := hstarted later hready.stored, pending := ?_, finished := ?_ }⟩
  · exact fun p hp => (h.pending p (hpending p hp)).mono hgrows le_rfl
  · intro g hg
    obtain hg | hg := List.mem_append.mp hg
    · exact h.finished g hg
    · obtain rfl := List.mem_singleton.mp hg
      exact hf

/-- The clock goes on. -/
private theorem Healthy.clock (h : s.Healthy seen rows) {m : Moment} (haware : m.isAware = true)
    (hle : s.clock.instant ≤ m.instant) : (s.step (.clock m)).Healthy seen rows := by
  refine { h with aware := haware, started := ?_, pending := ?_, gathered := ?_ }
  · exact fun r hr => (h.started r hr).mono hle
  · exact fun p hp => (h.pending p hp).mono (.refl rows) hle
  · intro p hp
    obtain ⟨old, user, hseen, hgathers⟩ := h.gathered p hp
    exact ⟨old, user, hseen, { hgathers with started := fun r hr => (hgathers.started r hr).mono hle }⟩

/-- One more call is under way. -/
private theorem Healthy.pend (h : s.Healthy seen rows) {db : Database} (hlike : s.database.Alike db)
    {pending : List Session.Pending} (hpending : ∀ p ∈ pending, p ∈ s.pending) {p : Session.Pending}
    (hp : Timely rows s.clock p.stage) (steps : Nat) :
    Healthy seen { s with database := db, steps, pending := pending ++ [p] } rows := by
  refine { h with ready := h.ready.alike hlike, pending := fun q hq => ?_ }
  obtain hq | hq := List.mem_append.mp hq
  · exact h.pending q (hpending q hq)
  · obtain rfl := List.mem_singleton.mp hq
    exact hp

/-- The first step of a stop. -/
private theorem Healthy.ask_stop (h : s.Healthy seen rows) {key : KeyRef} (hkey : key.fits = true) :
    ∃ later, (s.step (.ask (.stop key))).Healthy seen later := by
  by_cases hopen : ∃ r ∈ rows, r.isOpenFor key = true
  · obtain ⟨r, hr, hopen⟩ := hopen
    obtain ⟨db, hfind, hlike⟩ := Session.find_of_open h.ready hkey hr hopen
    have htimely : Timely rows s.clock (.found key r.interval) := ⟨r, hr, rfl⟩
    simp only [step, act, ask, hfind]
    exact ⟨rows, h.pend hlike (fun _ hp => hp) htimely _⟩
  · have hfree : ∀ r ∈ rows, ¬ r.isOpenFor key = true := fun r hr hfor => hopen ⟨r, hr, hfor⟩
    obtain ⟨db, hfind, hlike⟩ := Session.find_of_free h.ready hkey hfree
    obtain ⟨db', hrefuse, hnoted⟩ := Session.refuseStop_eq key s.clock db
    simp only [step, act, ask, hfind, System.conclude, hrefuse]
    refine h.conclude (hlike.trans hnoted).follows ?_ (fun _ hp => hp) _ ?_
    · intro later hlater
      rw [(hlike.trans hnoted).ledger, h.ready.stored] at hlater
      cases hlater
      exact h.started
    · rintro _ _ ⟨f, hfailure, hcause⟩
      cases hfailure
      cases hcause

/-- The next step of a start or a stop under way. -/
private theorem Healthy.resume (h : s.Healthy seen rows) (n : Nat) :
    ∃ later, (s.step (.resume n)).Healthy seen later := by
  simp only [step, act, System.resume]
  cases hn : s.pending[n]? with
  | none => exact ⟨rows, { h with }⟩
  | some p =>
    have hp := List.mem_of_getElem? hn
    have htimely := h.pending p hp
    have hrest : ∀ q ∈ s.pending.eraseIdx n, q ∈ s.pending :=
      fun q hq => List.mem_of_mem_eraseIdx hq
    obtain ⟨began, stage⟩ := p
    cases stage with
    | stamped fresh key now =>
      refine h.conclude (Session.start_follows fresh now key s.database) ?_ hrest _ ?_
      · intro later hlater
        exact Session.started_of_start h.ready.stored htimely.1 htimely.2 h.started hlater
      · rintro _ ⟨⟩
    | found key i =>
      obtain ⟨r, hr, hid⟩ := htimely
      have htimely' : Timely rows s.clock (.timed key i s.clock) :=
        ⟨r, hr, hid, (h.started r hr).started⟩
      exact ⟨rows, h.pend (.refl _) hrest htimely' _⟩
    | timed key i now =>
      refine h.conclude (Session.finish_follows key (some i) now s.database) ?_ hrest _ ?_
      · exact fun later hlater => Session.started_of_finish h.ready.stored h.started hlater
      · exact fun _ _ => Session.not_checked_of_finish h.ready (h.started_of_timed hp rfl)

/-- A report comes to its end. -/
private theorem Healthy.deliver (h : s.Healthy seen rows) {db : Database}
    (hlike : s.database.Alike db) {gathered : List Report.Pending}
    (hgathered : ∀ p ∈ gathered, p ∈ s.gathered) (steps : Nat)
    {f : Finished Report.Request (List TaskTime)}
    (hf : ∃ old, seen f.began old ∧ Report.Outcome old f) :
    Healthy seen { s with
      database := db, steps, gathered, reported := s.reported ++ [f] } rows := by
  refine { h with ready := h.ready.alike hlike, gathered := ?_, reported := ?_ }
  · exact fun p hp => h.gathered p (hgathered p hp)
  · intro g hg
    obtain hg | hg := List.mem_append.mp hg
    · exact h.reported g hg
    · obtain rfl := List.mem_singleton.mp hg
      exact hf

/-- The first step of a report. -/
private theorem Healthy.read (h : s.Healthy seen rows) (hseen : seen s.steps rows)
    {r : Report.Request} (hr : r.fits = true) : (s.step (.read r)).Healthy seen rows := by
  simp only [step, act, System.read]
  obtain ⟨hcheck, hwindow⟩ | ⟨problem, hcheck, hbounds⟩ := Window.check_cases r.start r.stop
  · rw [hcheck]
    dsimp only
    by_cases hempty : Window.isEmpty ⟨r.start, r.stop⟩ = true
    · rw [if_pos hempty]
      exact h.deliver (.refl _) (fun _ hp => hp) _ ⟨rows, hseen, .told rfl⟩
    rw [if_neg hempty]
    by_cases hbounds : r.start.Storable ∧ r.stop.Storable
    · obtain ⟨user, hasked, hfits⟩ := Report.Request.fits_iff.mp hr
      obtain ⟨is, db, hread, hlike, hmine, hall⟩ :=
        Report.intervalsOverlapping_reads h.ready hfits hbounds.1 hbounds.2
      simp only [Database.intervals, hasked, hread]
      refine { h with ready := h.ready.alike hlike, gathered := fun p hp => ?_ }
      obtain hp | hp := List.mem_append.mp hp
      · exact h.gathered p hp
      · obtain rfl := List.mem_singleton.mp hp
        exact ⟨rows, user, hseen, hasked, rfl, hwindow, h.ready.consistent, h.started, hmine,
          fun now => (hall now).2⟩
    · obtain ⟨db, hread, hlike⟩ :=
        Primitive.intervalsOverlapping_of_unstorable h.ready.calm hbounds r.user
      simp only [Database.intervals, hread]
      exact h.deliver hlike (fun _ hp => hp) _ ⟨rows, hseen, .unstorable rfl hwindow hbounds⟩
  · rw [hcheck]
    exact h.deliver (.refl _) (fun _ hp => hp) _ ⟨rows, hseen, .noWindow rfl hbounds⟩

/-- The last step of a report. -/
private theorem Healthy.add (h : s.Healthy seen rows) (n : Nat) :
    (s.step (.add n)).Healthy seen rows := by
  simp only [step, act, System.add]
  cases hn : s.gathered[n]? with
  | none => exact { h with }
  | some p =>
    obtain ⟨old, user, hseen, hgathers⟩ := h.gathered p (List.mem_of_getElem? hn)
    obtain ⟨db, hfinish, hlike⟩ := Report.finish_eq p.request.user p.window p.intervals s.clock
      s.database
    simp only [System.deliver, hfinish]
    exact h.deliver hlike (fun _ hp => List.mem_of_mem_eraseIdx hp) _
      ⟨old, hseen, hgathers.outcome h.aware s.steps⟩

/-- Every event keeps a system healthy. -/
theorem Healthy.step (h : s.Healthy seen rows) (hseen : seen s.steps rows) {e : Event}
    (hfits : e.fits = true) (haware : (e.time s.clock).isAware = true)
    (hle : s.clock.instant ≤ (e.time s.clock).instant) :
    ∃ later, (s.step e).Healthy seen later := by
  cases e with
  | clock m => exact ⟨rows, h.clock haware hle⟩
  | ask r =>
    cases r with
    | start fresh key =>
      have htimely : Timely rows s.clock (.stamped fresh key s.clock) := ⟨hfits, le_rfl⟩
      exact ⟨rows, h.pend (.refl _) (fun _ hp => hp) htimely _⟩
    | stop key => exact h.ask_stop hfits
  | resume n => exact h.resume n
  | read r => exact ⟨rows, h.read hseen hfits⟩
  | add n => exact ⟨rows, h.add n⟩
  | use p => cases hfits

theorem clock_step (s : System) (e : Event) : (s.step e).clock = e.time s.clock := by
  cases e with
  | clock m => rfl
  | use p => rfl
  | ask r =>
    cases r with
    | start fresh key => rfl
    | stop key =>
      simp only [System.step, act, ask]
      split <;> rfl
  | resume n =>
    simp only [System.step, act, System.resume]
    split
    · rfl
    · next began stage _ => cases stage <;> rfl
  | read r =>
    simp only [System.step, act, System.read]
    split
    · rfl
    · split
      · rfl
      · split <;> rfl
  | add n =>
    simp only [System.step, act, System.add]
    split <;> rfl

/-- A system stays healthy while its clock goes on. -/
theorem Healthy.run {events : List Event} (h : s.Healthy seen rows)
    (honward : Event.Onward s.clock events)
    (hseen : ∀ n old, (s.run (events.take n)).database.ledger.rows = some old →
      seen (s.steps + n) old) :
    ∃ later, (s.run events).Healthy seen later := by
  induction events generalizing s rows with
  | nil => exact ⟨rows, h⟩
  | cons e events ih =>
    obtain ⟨hfits, haware, hle, honward⟩ := honward
    obtain ⟨next, hnext⟩ := h.step (hseen 0 rows h.ready.stored) hfits haware hle
    rw [← clock_step] at honward
    refine ih hnext honward fun n old hold => ?_
    have hlater := hseen (n + 1) old hold
    rwa [← Nat.add_assoc, Nat.add_right_comm] at hlater

/-- From an empty table, whatever the order of starts, stops and reports on a clock that does not go back: a
    stop that has read the time is not rejected by a constraint and no stop has been, and a report tells
    times, or is refused for its bounds, or has met more time of a task than a duration holds among the
    rows that were stored when it began. -/
theorem onward_calls_end_well {db : Database} {clock : Moment} {events : List Event}
    (hblank : db.Blank) (hcalm : db.Undisturbed) (haware : clock.isAware = true)
    (honward : Event.Onward clock events) :
    let s := (on db clock).run events
    (∀ p ∈ s.pending, ∀ key i now, p.stage = .timed key i now →
      ∀ c, Ledger.closeRow i.id now s.database.ledger ≠ .error (.violates c)) ∧
    (∀ f ∈ s.finished, ∀ key, f.request = .stop key → ¬ Session.Checked f.answer) ∧
    ∀ f ∈ s.reported, ∃ rows,
      ((on db clock).run (events.take f.began)).database.ledger.rows = some rows ∧
        Report.Outcome rows f := by
  intro s
  have hinitial : Healthy (fun n old =>
      ((on db clock).run (events.take n)).database.ledger.rows = some old) (on db clock) [] :=
    ⟨⟨hcalm, hblank.openUnique, hblank.rows, .nil⟩, haware, by simp, by simp [on], by simp [on],
      by simp [on], by simp [on]⟩
  obtain ⟨rows, hlast⟩ := hinitial.run honward fun n old hold => by rwa [on, Nat.zero_add]
  refine ⟨?_, hlast.finished, hlast.reported⟩
  intro p hp key i now hstage
  exact Ledger.closeRow_of_started hlast.ready.stored (hlast.started_of_timed hp hstage)

/-- While an interval is open, a start of its key and a stop go on side by side, and a report reads its
    rows before the stop ends the interval and adds them up after the start has stored another one. -/
def rushed : List Event :=
  let key : KeyRef := ⟨some (.int 1), some (.int 1)⟩
  [.ask (.start (.ofNat 0xa1) key), .resume 0, .clock (tick 2), .ask (.start (.ofNat 0xa2) key),
    .ask (.stop key), .clock (tick 5), .resume 1, .read ⟨some (.int 1), tick 0, tick 9⟩, .resume 1,
    .resume 0, .clock (tick 6), .add 0, .ask (.stop key), .resume 0]

theorem rushed_calls_end_well :
    let s := (on {} (tick 1)).run rushed
    Event.Onward (tick 1) rushed ∧
    (∃ p ∈ s.pending, ∃ key i now, p.stage = .timed key i now ∧
      ∀ c, Ledger.closeRow i.id now s.database.ledger ≠ .error (.violates c)) ∧
    (∃ f ∈ s.finished, ¬ Session.Checked f.answer) ∧
    ∃ f ∈ s.reported, ∃ rows,
      ((on {} (tick 1)).run (rushed.take f.began)).database.ledger.rows = some rows ∧
        Report.Outcome rows f := by
  intro s
  have honward : Event.Onward (tick 1) rushed := by decide
  have hblank : Database.Blank {} := ⟨rfl, rfl⟩
  obtain ⟨hpending, hfinished, hreported⟩ :=
    onward_calls_end_well hblank (fun _ _ => rfl) rfl honward
  let key : KeyRef := ⟨some (.int 1), some (.int 1)⟩
  have hstage : s.pending.map (·.stage) =
      [.timed key ⟨.ofNat 0xa2, .int 1, .int 1, tick 2, none⟩ (tick 6)] := by decide +kernel
  have hstop : (s.finished.any fun f => f.request = .stop key) = true := by decide +kernel
  have hreport : s.reported.length = 1 := by decide +kernel
  refine ⟨honward, ?_, ?_, ?_⟩
  · obtain ⟨p, hp, hstage⟩ := List.mem_map.mp (hstage ▸ List.mem_singleton_self _)
    exact ⟨p, hp, key, _, _, hstage, hpending p hp key _ _ hstage⟩
  · obtain ⟨f, hf, hrequest⟩ := List.any_eq_true.mp hstop
    exact ⟨f, hf, hfinished f hf key (of_decide_eq_true hrequest)⟩
  · obtain ⟨f, hf⟩ := List.exists_mem_of_length_pos (hreport ▸ Nat.one_pos)
    exact ⟨f, hf, hreported f hf⟩

/-- One user at one task. -/
def job : KeyRef := ⟨some (.int 1), some (.int 1)⟩

/-- The last microsecond of the calendar. -/
def lastMoment : Moment := ⟨calendarMicros - 1, some .utc, by decide⟩

/-- The id that a start of the job makes up. It does not read as a number. -/
def ticket (i : Nat) : Uuid := .ofNat (0xa000 + i)

/-- An interval of the job over the whole calendar. -/
def lifelong (i : Nat) : Row :=
  ⟨ticket i, .int 1, .int 1, beat 0, some ⟨calendarMicros - 1, by decide⟩⟩

/-- Starts of the job that have read the clock in the first microsecond of the calendar. -/
def waiting (ids : List Nat) : List Session.Pending :=
  ids.map fun i => ⟨i, .stamped (ticket i) job (tick 0)⟩

/-- The next start inserts, and a stop ends its row. -/
def turn (behind : Nat) : List Event :=
  [.resume 0, .ask (.stop job), .resume behind, .resume behind]

/-- Starts that wait insert one after the other. -/
def turns : List Nat → List Event
  | [] => []
  | _ :: ids => turn ids.length ++ turns ids

/-- In the last microsecond the starts of the job with some ids have stored their intervals, and others
    wait to do so. -/
structure Flooded (s : System) (done ids : List Nat) : Prop where
  ready : s.database.Ready (done.map lifelong)
  foreignKeys : s.database.ledger.foreignKeys = false
  clock : s.clock = lastMoment
  pending : s.pending = waiting ids
  gathered : s.gathered = []
  reported : s.reported = []

theorem run_asks (n : Nat) :
    (on {} (tick 0)).run ((List.range n).map fun i => .ask (.start (ticket i) job)) =
      { on {} (tick 0) with steps := n, pending := waiting (List.range n) } := by
  induction n with
  | zero => rfl
  | succ n ih =>
    have hwaiting : waiting (List.range n ++ [n]) = waiting (List.range n) ++ waiting [n] :=
      List.map_append
    rw [List.range_succ, List.map_append, run_append, ih, hwaiting]
    rfl

private theorem eraseIdx_concat_length {α : Type} (xs : List α) (x : α) :
    (xs ++ [x]).eraseIdx xs.length = xs := by
  simp [List.eraseIdx_append_of_length_le]

/-- A start that has read the clock at the beginning stores a row, and a stop at the end finds and ends it. -/
private theorem start_and_stop {db : Database} {rows : List Row} (h : db.Ready rows)
    (hadmits : db.ledger.admits job = true) (hclosed : ∀ r ∈ rows, ¬ r.isOpenFor job = true) {i : Nat}
    (hnew : ∀ r ∈ rows, r.id ≠ ticket i) :
    ∃ begun found ended db₁ db₂ db₃,
      Session.start Database.intervals (ticket i) (tick 0) job db = (.ok begun, db₁) ∧
      Session.find Database.intervals job db₁ = (.ok (some found), db₂) ∧
      Session.finish Database.intervals job (some found) lastMoment db₂ = (.ok ended, db₃) ∧
      db₃.Ready (rows ++ [lifelong i]) ∧ db₃.ledger.foreignKeys = db.ledger.foreignKeys := by
  have hkey : job.fits = true := by decide
  have hfirst : Instant.ofMoment (tick 0) = .ok ⟨0, by decide⟩ := rfl
  have hlast : Instant.ofMoment lastMoment = .ok ⟨calendarMicros - 1, by decide⟩ := rfl
  obtain ⟨db₁, row, hstart, hdisruption, hledger, hid, hkeyRef, hstarted, hopen⟩ :=
    Session.start_of_free h hkey hadmits hnew (Instant.storable_iff.mpr ⟨_, hfirst⟩) hclosed
  have hmem : row ∈ rows ++ [row] := by simp
  have hfollows := Session.start_follows (ticket i) (tick 0) job db
  rw [hstart] at hfollows
  obtain ⟨_, hready, _⟩ := h.follows hfollows
  obtain rfl := Option.some.inj (hready.stored.symm.trans (congrArg Ledger.rows hledger))
  obtain ⟨db₂, hfind, hlike⟩ :=
    Session.find_of_open hready hkey hmem (Row.isOpenFor_iff.mpr ⟨hkeyRef, hopen⟩)
  have hready₂ := hready.alike hlike
  have horder : row.started.micros ≤ calendarMicros - 1 := Nat.le_pred_of_lt row.started.micros_lt
  have hsame : row.id = row.interval.id := rfl
  obtain ⟨db₃, hfinish, hdisruption₃, hledger₃⟩ :=
    Session.finish_of_open hready₂ job hmem hsame hopen hlast horder
  have hfollows₂ := Session.finish_follows job (some row.interval) lastMoment db₂
  rw [hfinish] at hfollows₂
  obtain ⟨_, hready₃, _⟩ := hready₂.follows hfollows₂
  obtain rfl := Option.some.inj (hready₃.stored.symm.trans (congrArg Ledger.rows hledger₃))
  refine ⟨_, _, _, db₁, db₂, db₃, hstart, hfind, hfinish, ?_, ?_⟩
  · have hrow : row.closing row.id ⟨calendarMicros - 1, by decide⟩ = lifelong i := by
      rw [Row.closing, if_pos (Row.isOpenWith_iff.mpr ⟨rfl, hopen⟩)]
      cases row
      cases hkeyRef
      cases hid
      cases hfirst.symm.trans hstarted
      rfl
    have hlater := hready.consistent.map_closing rfl ⟨calendarMicros - 1, by decide⟩
    rw [hrow] at hlater
    rw [← hlater]
    exact hready₃
  · rw [hledger₃, hlike.ledger, hledger]

theorem Flooded.turn {done ids : List Nat} {i : Nat} (h : s.Flooded done (i :: ids))
    (hnew : ∀ j ∈ done, ticket j ≠ ticket i) :
    (s.run (turn ids.length)).Flooded (done ++ [i]) ids := by
  have hadmits : s.database.ledger.admits job = true := by simp [Ledger.admits, h.foreignKeys]
  have hclosed : ∀ r ∈ done.map lifelong, ¬ r.isOpenFor job = true := by
    intro r hr hopen
    obtain ⟨j, _, rfl⟩ := List.mem_map.mp hr
    cases (Row.isOpenFor_iff.mp hopen).2
  have hids : ∀ r ∈ done.map lifelong, r.id ≠ ticket i := by
    intro r hr
    obtain ⟨j, hj, rfl⟩ := List.mem_map.mp hr
    exact hnew j hj
  obtain ⟨begun, found, ended, db₁, db₂, db₃, hstart, hfind, hfinish, hready, hforeign⟩ :=
    start_and_stop h.ready hadmits hclosed hids
  have hpending : s.pending = ⟨i, .stamped (ticket i) job (tick 0)⟩ :: waiting ids := h.pending
  have hlength : ids.length = (waiting ids).length := (List.length_map _).symm
  rw [hlength]
  simp only [System.turn, System.run, List.foldl_cons, List.foldl_nil, System.step, act, System.resume,
    System.conclude, ask, hpending, List.getElem?_cons_zero, List.eraseIdx_zero, List.tail_cons, hstart,
    hfind, h.clock, List.getElem?_concat_length, eraseIdx_concat_length, hfinish]
  refine ⟨?_, hforeign.trans h.foreignKeys, rfl, rfl, h.gathered, h.reported⟩
  rw [List.map_append]
  exact hready

theorem Flooded.turns {done ids : List Nat} (h : s.Flooded done ids)
    (hids : ((done ++ ids).map ticket).Nodup) : (s.run (turns ids)).Flooded (done ++ ids) [] := by
  induction ids generalizing s done with
  | nil =>
    rw [List.append_nil]
    exact h
  | cons i ids ih =>
    have hnew : ∀ j ∈ done, ticket j ≠ ticket i := by
      rw [List.map_append, List.nodup_append] at hids
      exact fun j hj => hids.2.2 _ (List.mem_map_of_mem hj) _ (by simp)
    rw [List.append_cons] at hids ⊢
    rw [System.turns, run_append]
    exact ih (h.turn hnew) hids

/-- A report over the whole calendar. -/
def wholeReport : Report.Request := ⟨some (.int 1), tick 0, lastMoment⟩

theorem Flooded.report {done : List Nat} (h : s.Flooded done []) :
    ∃ f, (s.run [.read wholeReport, .add 0]).reported = [f] ∧ f.request = wholeReport ∧
      f.answer = Report.aggregate ((done.map lifelong).map Row.interval) ⟨tick 0, lastMoment⟩
        lastMoment := by
  have hfirst : Instant.ofMoment (tick 0) = .ok ⟨0, by decide⟩ := rfl
  have hlast : Instant.ofMoment lastMoment = .ok ⟨calendarMicros - 1, by decide⟩ := rfl
  have huser : Integer.fits64 1 = true := by decide
  obtain ⟨db₁, hread, hlike⟩ := Primitive.intervalsOverlapping_of_fits h.ready huser hfirst hlast
  have hall : ∀ r ∈ done.map lifelong, (r.ofUser (some (.int 1)) &&
      r.reaches ⟨0, by decide⟩ ⟨calendarMicros - 1, by decide⟩) = true := by
    intro r hr
    obtain ⟨j, _, rfl⟩ := List.mem_map.mp hr
    rfl
  have hsorted : (done.map lifelong).Pairwise fun a b =>
      decide (a.started.micros ≤ b.started.micros) = true := by
    rw [List.pairwise_map]
    exact List.pairwise_of_forall_mem_list fun _ _ _ _ => rfl
  rw [List.filter_eq_self.mpr hall, List.mergeSort_of_pairwise hsorted] at hread
  have hread' : Database.intervals.intervalsOverlapping (some (.int 1)) (tick 0) lastMoment
      s.database = _ := hread
  have hcheck : Window.check (tick 0) lastMoment = .ok ⟨tick 0, lastMoment⟩ := rfl
  have hnonempty : Window.isEmpty ⟨tick 0, lastMoment⟩ = false := by decide
  obtain ⟨db₂, hfinish, _⟩ := Report.finish_eq (some (.int 1)) ⟨tick 0, lastMoment⟩
    ((done.map lifelong).map Row.interval) lastMoment db₁
  simp only [System.run, List.foldl_cons, List.foldl_nil, System.step, act, System.read, System.add,
    System.deliver, wholeReport, hcheck, hnonempty, Bool.false_eq_true, if_false, hread', h.gathered,
    h.reported, h.clock, List.nil_append, List.getElem?_cons_zero, hfinish]
  exact ⟨_, rfl, rfl, rfl⟩

/-- Starts, all of which read the clock at the beginning and insert at the end, and a report. -/
def flood (n : Nat) : List Event :=
  (List.range n).map (fun i => .ask (.start (ticket i) job)) ++
    .clock lastMoment :: (turns (List.range n) ++ [.read wholeReport, .add 0])

theorem still_of_turns (ids : List Nat) :
    ∀ e ∈ turns ids, e.fits = true ∧ e.time lastMoment = lastMoment := by
  induction ids with
  | nil => simp [turns]
  | cons i ids ih =>
    intro e he
    obtain he | he := List.mem_append.mp he
    · simp only [turn, List.mem_cons, List.not_mem_nil, or_false] at he
      obtain rfl | rfl | rfl | rfl := he <;> exact ⟨rfl, rfl⟩
    · exact ih e he

theorem onward_flood (n : Nat) : Event.Onward (tick 0) (flood n) := by
  refine Event.onward_append rfl ?_ ⟨rfl, rfl, by decide, ?_⟩
  · intro e he
    obtain ⟨i, _, rfl⟩ := List.mem_map.mp he
    exact ⟨rfl, rfl⟩
  · exact Event.onward_append rfl (still_of_turns _) (by decide)

/-- What the starts of the flood have stored when they have taken their turns. -/
theorem flooded {n : Nat} (hn : n ≤ 0x1000) :
    ∃ s, Flooded s (List.range n) [] ∧
      (on {} (tick 0)).run (flood n) = s.run [.read wholeReport, .add 0] := by
  have hids : ((List.range n).map ticket).Nodup := by
    refine List.nodup_range.map_on fun i hi j hj hsame => ?_
    rw [List.mem_range] at hi hj
    have hcount : 0xb000 ≤ uuidCount := by decide
    have hvalue : (0xa000 + i) % uuidCount = (0xa000 + j) % uuidCount := congrArg Uuid.value hsame
    rw [Nat.mod_eq_of_lt (by omega), Nat.mod_eq_of_lt (by omega)] at hvalue
    omega
  let asked := (on {} (tick 0)).run ((List.range n).map fun i => .ask (.start (ticket i) job))
  have hasked : Flooded (asked.step (.clock lastMoment)) [] (List.range n) := by
    simp only [asked, run_asks]
    exact ⟨⟨fun _ _ => rfl, rfl, rfl, .nil⟩, rfl, rfl, rfl, rfl, rfl⟩
  refine ⟨_, hasked.turns hids, ?_⟩
  rw [flood, run_append, System.run, List.foldl_cons]
  exact run_append _ _ _

set_option maxRecDepth 20000 in
/-- The first total of more than 999999999 days is the one of 274 intervals. -/
private theorem aggregate_lifelong :
    Report.aggregate (((List.range 274).map lifelong).map Row.interval) ⟨tick 0, lastMoment⟩ lastMoment =
      .error (.tooLong ⟨1000664165⟩) := by
  exact rfl

/-- With 274 such starts a report of one task has more time than a duration holds. -/
theorem flood_too_long :
    Database.Blank {} ∧ Database.Undisturbed {} ∧ Event.Onward (tick 0) (flood 274) ∧
      ∃ f ∈ ((on {} (tick 0)).run (flood 274)).reported, f.request = wholeReport ∧
        f.answer = .error (.tooLong ⟨1000664165⟩) := by
  refine ⟨⟨rfl, rfl⟩, fun _ _ => rfl, onward_flood 274, ?_⟩
  have hfew : 274 ≤ 0x1000 := by decide
  obtain ⟨s, hflooded, hrun⟩ := flooded hfew
  obtain ⟨f, hreported, hrequest, hanswer⟩ := hflooded.report
  refine ⟨f, ?_, hrequest, hanswer.trans aggregate_lifelong⟩
  rw [hrun, hreported]
  exact List.mem_singleton_self f

end System
end Worklog
