import Worklog.Proofs.Database.CalmTasks
import Worklog.Proofs.Http.Bodies
import Worklog.Proofs.Http.Labels
import Worklog.Proofs.Moment.Text
import Worklog.Proofs.Report.Selection
import Worklog.Proofs.Session.Calm

namespace Worklog

namespace ReportBounds

variable {short long : String} {members : List (String × Json)} {v : Json} {start stop : Moment}

/-- The members give a bound: under its short name or, without that, under its long one. -/
def Gives (short long : String) (v : Json) (members : List (String × Json)) : Prop :=
  Json.get? short (.obj members) = some v ∨
    Json.get? short (.obj members) = none ∧ Json.get? long (.obj members) = some v

/-- A text that reads as a moment is a bound under either name. -/
theorem bound_of_gives {m : Moment} (h : Gives short long v members) (hv : Timestamp.ofJson v = .ok m) :
    bound short long members = .ok m := by
  obtain h | ⟨hnone, h⟩ := h
  · rw [bound, h]
    simp only [hv]
    rfl
  · rw [bound, hnone, h]
    simp only [hv]
    rfl

theorem ofMembers_of_gives {first last : Json} (hfirst : Gives "from" "window_from" first members)
    (hlast : Gives "to" "window_to" last members) (hstart : Timestamp.ofJson first = .ok start)
    (hstop : Timestamp.ofJson last = .ok stop) : ofMembers members = .ok ⟨start, stop⟩ := by
  rw [ofMembers, bound_of_gives hfirst hstart, bound_of_gives hlast hstop]

end ReportBounds

namespace Body

/-- A body of an interval shows a moment with a text, as its start or as its end. -/
def Shows (m : Moment) (text : String) : Prop :=
  ∃ i : Interval, i.started = m ∧ Json.get? "started_at" (interval i) = some (.str text) ∨
    i.stopped = some m ∧ Json.get? "stopped_at" (interval i) = some (.str text)

theorem get?_started_at (i : Interval) :
    Json.get? "started_at" (interval i) = some (.str i.started.bodyText) := rfl

theorem get?_stopped_at (i : Interval) :
    Json.get? "stopped_at" (interval i) = some (Json.ofText? (i.stopped.map Moment.bodyText)) := rfl

theorem bodyText_of_shows {m : Moment} {text : String} (h : Shows m text) : text = m.bodyText := by
  obtain ⟨i, ⟨rfl, h⟩ | ⟨hstopped, h⟩⟩ := h
  · rw [get?_started_at] at h
    cases h
    rfl
  · rw [get?_stopped_at, hstopped] at h
    cases h
    rfl

/-- A text that a body shows is read as the moment that it shows. -/
theorem ofJson_of_shows {m : Moment} {text : String} (hm : m.Whole) (h : Shows m text) :
    Timestamp.ofJson (.str text) = .ok m := by
  rw [bodyText_of_shows h, Timestamp.ofJson_bodyText hm]

end Body

namespace Http

/-- The members of a JSON body, if all of them are texts. -/
def Request.texts? (r : Request) : Option (List (String × String)) :=
  match r.readBody with
  | .ok (.value (.obj members)) => members.mapM fun m => (Settings.text m.2).toOption.map (m.1, ·)
  | _ => none

theorem Request.readBody_of_texts? {r : Request} {texts : List (String × String)}
    (h : r.texts? = some texts) : r.readBody = .ok (.value (.obj (texts.map fun m => (m.1, .str m.2)))) := by
  unfold texts? at h
  split at h
  · next members hbody =>
    suffices heq : members = texts.map fun m => (m.1, .str m.2) by rw [hbody, heq]
    clear hbody
    induction members generalizing texts with
    | nil =>
      cases h
      rfl
    | cons m members ih =>
      rw [List.mapM_cons] at h
      obtain ⟨first, hfirst, rest, hrest, htexts⟩ := by
        simpa only [Option.bind_eq_bind, Option.bind_eq_some_iff] using h
      cases htexts
      obtain ⟨text, htext, rfl⟩ := Option.map_eq_some_iff.mp hfirst
      obtain ⟨name, v⟩ := m
      cases v with
      | str s =>
        cases htext
        rw [List.map_cons, ← ih hrest]
      | _ => cases htext
  · cases h

theorem Request.asks_report_iff {r : Request} {user : Int} {bounds : ReportBounds} :
    r.asks = some (.report user bounds) ↔ ∃ text ms, r.route? = some (.report text) ∧
      Integer.parse text = .ok user ∧ r.readBody = .ok (.value (.obj ms)) ∧
      ReportBounds.ofMembers ms = .ok bounds := by
  rw [asks_eq_some_iff]
  constructor
  · rintro ⟨route, body, hroute, hbody, hread⟩
    cases route with
    | report text =>
      obtain ⟨_, hboth, hcall⟩ := except_map_eq_ok_iff.mp hread
      cases hcall
      obtain ⟨huser, hmembers⟩ := Route.both_eq_ok_iff.mp hboth
      obtain ⟨ms, rfl, hms⟩ := Body.members_eq_ok_iff.mp hmembers
      exact ⟨text, ms, hroute, except_mapError_eq_ok_iff.mp huser, hbody, hms⟩
    | _ => simp [Route.read, except_map_eq_ok_iff] at hread
  · rintro ⟨text, ms, hroute, huser, hbody, hms⟩
    refine ⟨_, _, hroute, hbody, except_map_eq_ok_iff.mpr
      ⟨(user, bounds), Route.both_eq_ok_iff.mpr ⟨?_, ?_⟩, rfl⟩⟩
    · exact except_mapError_eq_ok_iff.mpr huser
    · exact Body.members_eq_ok_iff.mpr ⟨ms, rfl, hms⟩

end Http

namespace Session

variable {db db' : Database} {rows : List Row} {user task : Int} {now : Moment} {i : Interval}

/-- What is found for a key is its open row, and the numbers of the key are small enough to be stored. -/
theorem open_of_find (hstored : db.ledger.rows = some rows) (hfine : Consistent rows)
    (h : find Database.intervals (Key.mk (.int user) (.int task)).ref db = (.ok (some i), db')) :
    db'.ledger = db.ledger ∧ Integer.fits64 user = true ∧
      ∃ r ∈ rows, r.key = ⟨.int user, .int task⟩ ∧ r.stopped = none ∧ i = r.interval := by
  rw [find_eq] at h
  rcases hlook : Primitive.openInterval (Key.mk (.int user) (.int task)).ref db with ⟨answer, u⟩
  rw [hlook] at h
  obtain ⟨hanswer, rfl⟩ := Prod.mk.inj h
  obtain ⟨hlike, ⟨prepared, opened, hopened, rfl⟩ | ⟨_, rfl, _⟩⟩ := Primitive.openInterval_cases hlook
  swap
  · cases hanswer
  have hfits : (Key.mk (.int user) (.int task)).ref.fits = true := by
    by_contra hwide
    obtain ⟨_, hprepare, _⟩ := except_bind_eq_ok_iff.mp hopened
    have hbound := (Ledger.prepare_eq_ok_iff.mp hprepare).2
    cases ((Ledger.bindKey_tooWide_iff user task).mpr hwide).symm.trans hbound
  cases (Ledger.openRows_of_fits hstored hfits).symm.trans hopened
  have hfound := except_mapError_eq_ok_iff.mp hanswer
  obtain hnone | ⟨r, hr, hfor, hone⟩ := hfine.filter_open (Key.mk (.int user) (.int task)).ref
  · rw [hnone] at hfound
    cases hfound
  · rw [hone] at hfound
    cases hfound
    obtain ⟨_, _, huser, _, heq⟩ := KeyRef.fits_iff.mp hfits
    cases heq
    obtain ⟨hkey, hopen⟩ := Row.isOpenFor_iff.mp hfor
    exact ⟨hlike.ledger, huser, r, hr, Key.ref_injective hkey, hopen, rfl⟩

/-- A stop that succeeds ends the open row of its key. -/
theorem stop_eq_ok (hstored : db.ledger.rows = some rows) (hfine : Consistent rows)
    (hstop : stop Database.intervals now (Key.mk (.int user) (.int task)).ref db = (.ok i, db')) :
    Integer.fits64 user = true ∧ ∃ r ∈ rows, ∃ ended, r.key = ⟨.int user, .int task⟩ ∧ r.stopped = none ∧
      i = (r.stoppedAt ended).interval ∧ db'.ledger.rows = some (rows.map (Row.closing r.id ended)) ∧
      Consistent (rows.map (Row.closing r.id ended)) := by
  obtain ⟨found, u, hfind, hfinish⟩ | ⟨_, _, hr⟩ := Run.bind_eq_iff.mp hstop
  swap
  · cases hr
  cases found with
  | none =>
    obtain ⟨_, hrefused, _⟩ := refuseStop_eq (Key.mk (.int user) (.int task)).ref now u
    cases hrefused.symm.trans hfinish
  | some found =>
    obtain ⟨hledger, huser, r, hr, hkey, hopen, rfl⟩ := open_of_find hstored hfine hfind
    obtain ⟨closed, v, hclose, hnoted, hanswer⟩ := finish_cases hfinish
    obtain ⟨_, ⟨n, _, _, hrow, hload, rfl⟩ | ⟨_, ⟨_, _, rfl⟩ | ⟨_, rfl, _⟩⟩⟩ :=
      Primitive.closeInterval_cases hclose
    · obtain ⟨_, ended, hrows, _, horder, _, hafter⟩ := Ledger.closeRow_eq_ok hrow
      rw [hledger, hstored] at hrows
      cases hrows
      rw [hafter, Ledger.findRow_eq_ok rfl] at hload
      have hid : r.interval.id = r.id := rfl
      rw [hid, hfine.find_closing hr hopen] at hload
      cases hload
      cases hanswer
      refine ⟨huser, r, hr, ended, hkey, hopen, rfl, ?_, hfine.closing horder⟩
      rw [hnoted.ledger, hafter]
      rfl
    · cases hanswer
    · cases hanswer

end Session

/-- What is stored can be stored again. -/
theorem Instant.storable_toMoment (i : Instant) : i.toMoment.Storable :=
  storable_iff.mpr ⟨i, ofMoment_eq_ok_iff.mpr ⟨rfl, (instant_toMoment i).symm⟩⟩

/-- The window of a row that has ended, from its start to its end. -/
def Row.window (r : Row) (ended : Instant) : Window := ⟨r.started.toMoment, ended.toMoment⟩

namespace Report

variable {db : Database} {rows : List Row} {is : List Interval} {i : Interval} {w : Window} {now : Moment}
  {user task : Int} {row : Row} {ended : Instant}

theorem share_le_spent (hi : i ∈ is) (w : Window) (now : Moment) : i.share w now ≤ spent i.task is w now :=
  List.le_sum_of_mem (List.mem_map_of_mem (List.mem_filter.mpr ⟨hi, by simp⟩))

/-- In its own window a row has all of its time. -/
theorem share_window (hended : row.stopped = some ended) (now : Moment) :
    row.interval.share (row.window ended) now = ended.micros - row.started.micros := by
  have hstart : row.interval.started = row.started.toMoment := rfl
  rw [Interval.share_eq, Row.effectiveEnd_of_closed hended, hstart, Row.window, min_self, max_self,
    Instant.instant_toMoment, Instant.instant_toMoment]
  omega

/-- An interval that meets the window has its task in the totals. -/
theorem Tallies.mem_of_meets {totals : List TaskTime} (h : Tallies totals is w now) (hi : i ∈ is)
    (hmeets : i.Meets w now) : ⟨i.task, spent i.task is w now⟩ ∈ totals := by
  obtain ⟨r, hr, htask⟩ := h.complete i hi hmeets
  rw [← htask, ← h.micros r hr]
  exact hr

/-- A report over the window of a stored row has a row for its task, with no less than its time. -/
theorem run_window (h : db.Ready rows) (huser : Integer.fits64 user = true) (hrow : row ∈ rows)
    (hkey : row.key = ⟨.int user, .int task⟩) (hended : row.stopped = some ended)
    (hlt : row.started.micros < ended.micros) (hripe : Ripe user rows now)
    (hshort : ∀ task, (spent task (ofUser user rows) (row.window ended) now : Int) ≤ Duration.greatest) :
    ∃ totals db', run Database.intervals now (some (.int user)) row.started.toMoment ended.toMoment db =
        (.ok totals, db') ∧ db.Alike db' ∧
      ⟨.int task, spent (.int task) (ofUser user rows) (row.window ended) now⟩ ∈ totals := by
  have hstart := row.started.storable_toMoment
  have hstop := ended.storable_toMoment
  have hordered : row.started.toMoment.instant < ended.toMoment.instant := by
    rw [Instant.instant_toMoment, Instant.instant_toMoment]
    exact Int.ofNat_lt.mpr hlt
  obtain ⟨is, db', hrun, hlike, hmine, hall, hspent⟩ := run_reads h huser hstart hstop hordered now
  have hsane : ∀ i ∈ is, i.Sane now := fun i hi => hripe.sane h.consistent i (hmine i hi)
  have hints : ∀ i ∈ is, ∃ n : Int, i.task = .int n := fun i hi => hripe.ints i (hmine i hi)
  have hw : (row.window ended).Sane := ⟨hstart.1, hstop.1, hordered.le⟩
  obtain ⟨totals, htotals, htallies⟩ | ⟨_, t, _, hlong⟩ := aggregate_cases hw hsane hints
  · have hmem : row.interval ∈ ofUser user rows := mem_ofUser.mpr ⟨row, hrow, congrArg Key.user hkey, rfl⟩
    have htask : row.interval.task = .int task := congrArg Key.task hkey
    have hmeets : row.interval.Meets (row.window ended) now := by
      rw [Interval.Meets, Row.effectiveEnd_of_closed hended]
      exact ⟨hordered, hordered⟩
    refine ⟨totals, db', hrun.trans (congrArg (·, db') htotals), hlike, ?_⟩
    rw [← htask]
    exact Tallies.mem_of_meets (hall totals htallies) hmem hmeets
  · have hlong : (Duration.greatest : Int) < spent t (ofUser user rows) (row.window ended) now :=
      hspent t ▸ hlong
    exact absurd (hshort t) (not_le.mpr hlong)

/-- In the window of a stored row its task has no less than its time. -/
theorem le_spent_window (hrow : row ∈ rows) (hkey : row.key = ⟨.int user, .int task⟩)
    (hended : row.stopped = some ended) (now : Moment) :
    ended.micros - row.started.micros ≤ spent (.int task) (ofUser user rows) (row.window ended) now := by
  have hmem : row.interval ∈ ofUser user rows := mem_ofUser.mpr ⟨row, hrow, congrArg Key.user hkey, rfl⟩
  have htask : row.interval.task = .int task := congrArg Key.task hkey
  rw [← share_window hended now, ← htask]
  exact share_le_spent hmem (row.window ended) now

/-- While no microsecond belongs to two rows of the key, it is exactly its time. -/
theorem spent_window (hrow : row ∈ rows) (hkey : row.key = ⟨.int user, .int task⟩)
    (hended : row.stopped = some ended) (hle : row.started.micros ≤ ended.micros)
    (hpast : ∀ r ∈ rows, r.user = .int user → r.Past now) (htwice : NoneTwice row.key rows) :
    spent (.int task) (ofUser user rows) (row.window ended) now = ended.micros - row.started.micros := by
  have hlow := le_spent_window hrow hkey hended now
  have hordered : row.started.toMoment.instant ≤ ended.toMoment.instant := by
    rw [Instant.instant_toMoment, Instant.instant_toMoment]
    exact Int.ofNat_le.mpr hle
  have hhigh := card_covered_le rows row.key hordered now
  rw [hkey] at htwice hhigh
  rw [← htwice.spent_eq hpast, Instant.instant_toMoment, Instant.instant_toMoment] at hhigh
  have hwindow : spent (.int task) (ofUser user rows) ⟨row.started.toMoment, ended.toMoment⟩ now =
    spent (.int task) (ofUser user rows) (row.window ended) now := rfl
  omega

end Report

namespace Http

/-- A report whose rows have been added up is answered, if there is a table of tasks. -/
theorem Call.run_report {fresh : Uuid} {now : Moment} {user : Int} {bounds : ReportBounds}
    {db db' : Database} {totals : List TaskTime} {tasks : List Task} (hcalm : db'.Undisturbed)
    (htasks : db'.ledger.tasks = some tasks)
    (hrun : Report.run Database.intervals now (some (.int user)) bounds.start bounds.stop db =
      (.ok totals, db')) :
    ∃ label : Ident → Option String, ((Call.report user bounds).run fresh now db).1 =
      .ok (.ofJson 200 (.arr (totals.map fun row => Body.reportRow row (label row.task)))) := by
  obtain ⟨found, s, hread⟩ : ∃ found s,
      Tasks.descriptions (totals.map (·.task)) ⟨db', db'.ledger⟩ = (.ok found, s) := by
    unfold Tasks.descriptions
    split
    · exact ⟨_, _, rfl⟩
    · have hfound : Ledger.tasksWithIds (totals.map (·.task)) db'.ledger =
          .ok (tasks.filter fun t => (totals.map (·.task)).contains (.int t.id)) := by
        simp only [Ledger.tasksWithIds, Ledger.taskTable_eq_ok_iff.mpr htasks]
        rfl
      obtain ⟨s, hread, _⟩ := Work.read_of_calm (s := ⟨db', db'.ledger⟩) hcalm hfound
      exact ⟨_, s, hread⟩
  have hshown : reportRows totals ⟨db', db'.ledger⟩ =
      (.ok (.arr (totals.map fun row => Body.reportRow row (descriptionIn found row.task))), s) := by
    rw [reportRows, Run.bind_of_ok hread]
    rfl
  obtain ⟨u, hscope, _⟩ : ∃ u, Database.scope none (reportRows totals) db' = (_, u) ∧ _ :=
    Database.scope_of_work hshown
  refine ⟨descriptionIn found, ?_⟩
  rw [Call.run, Run.bind_of_ok hrun, Run.bind_of_ok hscope]
  rfl

namespace Service

/-- A visit asks for the report of a user over bounds that it gives as two texts. -/
def Visit.ReportsBetween (v : Visit) (user : Int) (first last : String) : Prop :=
  ∃ text members, v.request.route? = some (.report text) ∧ Integer.parse text = .ok user ∧
    v.request.readBody = .ok (.value (.obj members)) ∧
    ReportBounds.Gives "from" "window_from" (.str first) members ∧
    ReportBounds.Gives "to" "window_to" (.str last) members

/-- A service that can report on a user as of `now`: its rows are in order, it knows its tasks, and no task
    has more time in the window than a duration holds. -/
structure CanReport (s : Service) (rows : List Row) (user : Int) (w : Window) (now : Moment) : Prop where
  opened : s.opened = true
  ready : s.database.Ready rows
  tasks : ∃ tasks, s.database.ledger.tasks = some tasks
  ripe : Report.Ripe user rows now
  short : ∀ task, (Report.spent task (Report.ofUser user rows) w now : Int) ≤ Duration.greatest

variable {s : Service} {v : Visit} {user task : Int} {later : List Row} {row : Row} {ended : Instant}

/-- A visit is answered as its call ends, and leaves the database as the call does. -/
theorem visit_given {c : Call} (hasks : v.request.asks = some c) (hopened : s.opened = true) :
    (s.visit v).1.status = (Response.ofEnd (c.run v.fresh v.now s.database).1).status ∧
      (s.visit v).1.content = (Response.ofEnd (c.run v.fresh v.now s.database).1).content ∧
      (c.run v.fresh v.now s.database).2.Alike (s.visit v).2.database :=
  have hopen : (s.atTime v.now).opened = true := hopened
  have hanswer := answer_of_asks hasks hopen
  ⟨hanswer.1, hanswer.2.1, hanswer.2.2.database⟩

/-- Only a stop that succeeds shows a start. -/
theorem stop_of_shown {key : Key} {body shown : Json} (hopened : s.opened = true)
    (hasks : v.request.asks = some (.stop key)) (hcontent : (s.visit v).1.content = .json body)
    (hstarted : Json.get? "started_at" body = some shown) :
    ∃ i db, Session.stop Database.intervals v.now key.ref s.database = (.ok i, db) ∧
      body = Body.interval i ∧ db.Alike (s.visit v).2.database := by
  obtain ⟨_, hgiven, hlike⟩ := visit_given hasks hopened
  rw [hcontent] at hgiven
  rcases hrun : (Call.stop key).run v.fresh v.now s.database with ⟨answer, db⟩
  rw [hrun] at hgiven hlike
  obtain ⟨i, u, hstop, hlast⟩ | ⟨fault, _, rfl⟩ := Run.bind_eq_iff.mp hrun
  · cases hlast
    cases hgiven
    exact ⟨i, _, hstop, rfl, hlike⟩
  · -- The response to a fault is an envelope.
    exfalso
    cases fault <;>
    · cases hgiven
      cases hstarted

theorem asks_of_reportsBetween {first last : String} {start stop : Moment}
    (h : v.ReportsBetween user first last) (hfirst : Timestamp.ofJson (.str first) = .ok start)
    (hlast : Timestamp.ofJson (.str last) = .ok stop) :
    v.request.asks = some (.report user ⟨start, stop⟩) := by
  obtain ⟨text, members, hroute, huser, hbody, hfrom, hto⟩ := h
  exact Request.asks_report_iff.mpr ⟨text, members, hroute, huser, hbody,
    ReportBounds.ofMembers_of_gives hfrom hto hfirst hlast⟩

/-- A report over the window of a stored row shows its task with no less than its time. -/
theorem visit_window (h : s.CanReport later user (row.window ended) v.now)
    (huser : Integer.fits64 user = true)
    (hasks : v.request.asks = some (.report user ⟨row.started.toMoment, ended.toMoment⟩))
    (hrow : row ∈ later) (hkey : row.key = ⟨.int user, .int task⟩) (hended : row.stopped = some ended)
    (hlt : row.started.micros < ended.micros) :
    (s.visit v).1.status = 200 ∧ ∃ shown label, (s.visit v).1.content = .json (.arr shown) ∧
      Body.reportRow ⟨.int task,
        Report.spent (.int task) (Report.ofUser user later) (row.window ended) v.now⟩ label ∈ shown := by
  obtain ⟨hstatus, hcontent, _⟩ := visit_given hasks h.opened
  obtain ⟨totals, db, hrun, hlike, hmem⟩ :=
    Report.run_window h.ready huser hrow hkey hended hlt h.ripe h.short
  obtain ⟨tasks, htasks⟩ := h.tasks
  have hstored : db.ledger.tasks = some tasks := (congrArg Ledger.tasks hlike.ledger).trans htasks
  obtain ⟨label, hcall⟩ := @Call.run_report v.fresh v.now user ⟨row.started.toMoment, ended.toMoment⟩ _ _ _
    _ (h.ready.alike hlike).calm hstored hrun
  rw [hcall] at hstatus hcontent
  exact ⟨hstatus, _, _, hcontent, List.mem_map_of_mem hmem⟩

/-- The texts that bodies show for the start and the end of an interval are accepted as the bounds of a
    report, under either name, for the moments that they show. Neither reads as a number, nor is it as short
    as a date. A report between the two texts of a stop has a row for its task, which has all of the interval,
    and nothing else unless rows of the key overlap. -/
theorem handed_out_times_come_back :
    (∀ (m₁ m₂ : Moment) (t₁ t₂ : String), m₁.Whole → m₂.Whole → Body.Shows m₁ t₁ → Body.Shows m₂ t₂ →
      (∀ t ∈ [t₁, t₂], Timestamp.ofNumericText? t.toList = none ∧ 10 < t.length) ∧
      ∀ members, ReportBounds.Gives "from" "window_from" (.str t₁) members →
        ReportBounds.Gives "to" "window_to" (.str t₂) members →
        ReportBounds.ofMembers members = .ok ⟨m₁, m₂⟩) ∧
    ∀ (s : Service) (rows : List Row) (v : Visit) (user task : Int) (body : Json) (t₁ t₂ : String),
      s.opened = true → s.database.ledger.rows = some rows → Consistent rows →
      v.request.asks = some (.stop ⟨.int user, .int task⟩) →
      (s.visit v).1.content = .json body → Json.get? "started_at" body = some (.str t₁) →
      Json.get? "stopped_at" body = some (.str t₂) →
      ∃ (row : Row) (ended : Instant), row.key = ⟨.int user, .int task⟩ ∧ row.stopped = some ended ∧
        body = Body.interval row.interval ∧
        (∃ stored, (s.visit v).2.database.ledger.rows = some stored ∧ Consistent stored ∧ row ∈ stored) ∧
        (row.started.micros < ended.micros →
          ∀ (t : Service) (later : List Row) (w : Visit), row ∈ later →
            t.CanReport later user (row.window ended) w.now → w.ReportsBetween user t₁ t₂ →
            let micros := Report.spent (.int task) (Report.ofUser user later) (row.window ended) w.now
            (t.visit w).1.status = 200 ∧
            (∃ shown label, (t.visit w).1.content = .json (.arr shown) ∧
              Body.reportRow ⟨.int task, micros⟩ label ∈ shown) ∧
            row.interval.share (row.window ended) w.now = ended.micros - row.started.micros ∧
            ended.micros - row.started.micros ≤ micros ∧
            ((∀ r ∈ later, r.user = .int user → r.Past w.now) → Report.NoneTwice row.key later →
              micros = ended.micros - row.started.micros)) := by
  refine ⟨fun m₁ m₂ t₁ t₂ hm₁ hm₂ hshows₁ hshows₂ => ?_,
    fun s rows v user task body t₁ t₂ hopened hstored hfine hasks hcontent hstarted hstopped => ?_⟩
  · refine ⟨?_, fun members hfrom hto => ReportBounds.ofMembers_of_gives hfrom hto
      (Body.ofJson_of_shows hm₁ hshows₁) (Body.ofJson_of_shows hm₂ hshows₂)⟩
    simp only [List.mem_cons, List.not_mem_nil, or_false, forall_eq_or_imp, forall_eq,
      Body.bodyText_of_shows hshows₁, Body.bodyText_of_shows hshows₂]
    exact ⟨Timestamp.bodyText_is_full m₁, Timestamp.bodyText_is_full m₂⟩
  · obtain ⟨i, db, hstop, rfl, hlike⟩ := stop_of_shown hopened hasks hcontent hstarted
    obtain ⟨huser, r, hr, ended, hkey, hopen, rfl, hafter, hkept⟩ := Session.stop_eq_ok hstored hfine hstop
    let row := r.stoppedAt ended
    have hrowKey : row.key = ⟨.int user, .int task⟩ := hkey
    have hended : row.stopped = some ended := rfl
    have hfirst : Timestamp.ofJson (.str t₁) = .ok row.started.toMoment :=
      Body.ofJson_of_shows (Moment.whole_of_utc rfl) ⟨row.interval, .inl ⟨rfl, hstarted⟩⟩
    have hlast : Timestamp.ofJson (.str t₂) = .ok ended.toMoment :=
      Body.ofJson_of_shows (Moment.whole_of_utc rfl) ⟨row.interval, .inr ⟨rfl, hstopped⟩⟩
    refine ⟨row, ended, hrowKey, hended, rfl, ⟨_, ?_, hkept, ?_⟩,
      fun hlt t later w hrow hable hbetween => ?_⟩
    · rw [hlike.ledger, hafter]
    · refine List.mem_map.mpr ⟨r, hr, ?_⟩
      exact if_pos (Row.isOpenWith_iff.mpr ⟨rfl, hopen⟩)
    · obtain ⟨hstatus, hshown⟩ :=
        visit_window hable huser (asks_of_reportsBetween hbetween hfirst hlast) hrow hrowKey hended hlt
      exact ⟨hstatus, hshown, Report.share_window hended w.now,
        Report.le_spent_window hrow hrowKey hended w.now, fun hpast htwice =>
          Report.spent_window hrow hrowKey hended hlt.le hpast htwice⟩

/-- An interval that is open since the second microsecond of the calendar, and its end. -/
def briefRow : Row := ⟨.ofNat 0xa1, .int 42, .int 1, beat 1, none⟩

def briefEnded : Row := briefRow.stoppedAt (beat 4)

def brief : Service where
  clock := tick 0
  database := { ledger := { tasks := some [⟨1, "first"⟩], rows := some [briefRow] } }

def briefStop : Visit where
  fresh := .ofNat 0xa1
  now := tick 4
  request := { method := "POST", target := ⟨"/api/v1/users/42/tasks/1/stop".toList, []⟩ }

def briefReport : Visit where
  fresh := .ofNat 0xa1
  now := tick 6
  request :=
    { method := "POST", target := ⟨"/api/v1/users/42/report".toList, []⟩
      headers := [("content-type", "application/json")]
      body := "\x7b\"from\": \"0001-01-01T00:00:00.000001Z\", \"window_to\": \"0001-01-01T00:00:00.000004Z\"\x7d" }

/-- A time of India comes back, and so do the two times of a stop in the first second of the calendar. The
    report between them has their three microseconds. -/
theorem first_times_come_back :
    let m : Moment :=
      ⟨738885 * dayMicros + 330 * minuteMicros + 50, some ⟨330 * minuteMicros, by decide⟩, by decide⟩
    (m.Whole ∧ Body.Shows m "2024-01-01T05:30:00.000050+05:30" ∧
      ReportBounds.ofMembers [("window_from", .str "2024-01-01T05:30:00.000050+05:30"),
        ("to", .str "2024-01-01T05:30:00.000050+05:30")] = .ok ⟨m, m⟩) ∧
      (brief.visit briefStop).1.content = .json (Body.interval briefEnded.interval) ∧
      ((brief.visit briefStop).2.visit briefReport).1.status = 200 ∧
      ∃ shown label, ((brief.visit briefStop).2.visit briefReport).1.content = .json (.arr shown) ∧
        Body.reportRow ⟨.int 1, 3⟩ label ∈ shown := by
  intro m
  have hwhole : m.Whole := ⟨⟨330 * minuteMicros, by decide⟩, rfl, 330, rfl⟩
  have htext : m.bodyText = "2024-01-01T05:30:00.000050+05:30" := by decide +kernel
  have hshows : Body.Shows m "2024-01-01T05:30:00.000050+05:30" :=
    ⟨⟨.ofNat 0xa1, .int 42, .int 1, m, none⟩, .inl ⟨rfl, htext ▸ Body.get?_started_at _⟩⟩
  obtain ⟨hbounds, hreports⟩ := handed_out_times_come_back
  obtain ⟨_, haccepted⟩ := hbounds m m _ _ hwhole hwhole hshows hshows
  refine ⟨⟨hwhole, hshows, haccepted _ (.inr ⟨rfl, rfl⟩) (.inl rfl)⟩, ?_⟩
  have hready : brief.database.Ready [briefRow] :=
    ⟨fun _ _ => rfl, rfl, rfl, ⟨by decide, by decide, by decide⟩⟩
  have hstop : briefStop.request.asks = some (.stop ⟨.int 42, .int 1⟩) := by decide +kernel
  obtain ⟨db, hended, hdisruption, hledger⟩ := Session.stop_of_open hready
    (by decide : (Key.mk (.int 42) (.int 1)).ref.fits = true) (List.mem_singleton.mpr rfl) (by decide)
    (by decide : Instant.ofMoment (tick 4) = .ok (beat 4)) (by decide)
  obtain ⟨_, hcontent, hlike⟩ := visit_given hstop (rfl : brief.opened = true)
  have hcall : (Call.stop ⟨.int 42, .int 1⟩).run briefStop.fresh briefStop.now brief.database =
      (.ok (.ofJson 200 (Body.interval briefEnded.interval)), db) := Run.bind_of_ok hended
  rw [hcall] at hcontent hlike
  have hafter : (brief.visit briefStop).2.database.Ready [briefEnded] :=
    (hready.next hdisruption hledger ⟨by decide, by decide, by decide⟩).alike hlike
  obtain ⟨hfirst, hlast⟩ : briefEnded.started.toMoment.bodyText = "0001-01-01T00:00:00.000001Z" ∧
      (beat 4).toMoment.bodyText = "0001-01-01T00:00:00.000004Z" := by decide +kernel
  obtain ⟨row, ended, _, hstopped, _, ⟨stored, hrows, _, hmem⟩, hreport⟩ := hreports brief [briefRow]
    briefStop 42 1 _ "0001-01-01T00:00:00.000001Z" "0001-01-01T00:00:00.000004Z" rfl rfl hready.consistent
    hstop hcontent ((Body.get?_started_at _).trans (congrArg (some ∘ Json.str) hfirst))
    ((Body.get?_stopped_at _).trans (congrArg (some ∘ Json.str) hlast))
  cases hrows.symm.trans hafter.stored
  cases List.mem_singleton.mp hmem
  cases hstopped
  have hable : (brief.visit briefStop).2.CanReport [briefEnded] 42 (briefEnded.window (beat 4))
      briefReport.now := by
    refine ⟨opened_visit rfl briefStop, hafter, ⟨[⟨1, "first"⟩], ?_⟩, ⟨fun r hr _ => ?_, by decide⟩,
      fun task => ?_⟩
    · rw [hlike.ledger, hledger]
      rfl
    · exact ⟨1, List.mem_singleton.mp hr ▸ rfl⟩
    · exact (Int.ofNat_le.mpr (Report.spent_le task _ _ _)).trans (by decide)
  have hbetween : briefReport.ReportsBetween 42 "0001-01-01T00:00:00.000001Z"
      "0001-01-01T00:00:00.000004Z" := by
    have htexts : briefReport.request.texts? = some [("from", "0001-01-01T00:00:00.000001Z"),
        ("window_to", "0001-01-01T00:00:00.000004Z")] := by decide +kernel
    exact ⟨"42", _, by decide +kernel, by decide, Request.readBody_of_texts? htexts, .inl rfl,
      .inr ⟨rfl, rfl⟩⟩
  obtain ⟨hstatus, hshown, _, _, hexact⟩ := hreport (by decide) _ _ briefReport hmem hable hbetween
  refine ⟨hcontent, hstatus, ?_⟩
  have hpast : briefEnded.Past briefReport.now := ⟨by decide, fun e he => Option.some.inj he ▸ by decide⟩
  rwa [hexact (fun r hr _ => List.mem_singleton.mp hr ▸ hpast) (List.pairwise_singleton _ _)] at hshown

end Service
end Http
end Worklog
