import Worklog.Http.Service
import Worklog.Proofs.Database.Tasks
import Worklog.Proofs.Session.Calls

namespace Worklog

open Run

namespace Http

theorem keeps_probe : Keeps Database.ledger probe := by
  refine Keeps.handle ?_ fun _ _ => rfl
  exact (Database.keeps_scope none (Work.keeps_read _)).bind fun _ => keeps_pure true

theorem keeps_reportRows (rows : List TaskTime) : Keeps Scope.lasting (reportRows rows) := by
  refine Keeps.bind ?_ fun tasks => keeps_pure _
  unfold Tasks.descriptions
  split
  · exact keeps_pure []
  · exact Work.keeps_read _

namespace Call

theorem atomic_run (fresh : Uuid) (now : Moment) (c : Call) : Database.Atomic (c.run fresh now) := by
  cases c with
  | health => exact Database.atomic_of_spares (keeps_pure _).spares
  | ready => exact Database.atomic_of_spares (keeps_probe.bind fun _ => keeps_pure _).spares
  | createTask draft =>
    refine Database.Atomic.map (Database.atomic_scope none ?_) fun t =>
      Response.ofJson 201 (Response.taskBody t)
    exact (Tasks.settles_create _).bind_succeeds
      (fun t => (Work.keeps_note _).bind fun _ => keeps_pure t)
      fun t => (Work.succeeds_note _).bind fun _ => succeeds_pure t
  | listTasks limit offset =>
    exact Database.atomic_of_spares
      ((Database.keeps_scope none (Work.keeps_ask _)).bind fun _ => keeps_pure _).spares
  | getTask id =>
    exact Database.atomic_of_spares
      ((Database.keeps_scope none (Tasks.keeps_get id)).bind fun _ => keeps_pure _).spares
  | patchTask id patch =>
    exact (Database.atomic_scope none (Tasks.settles_describe id _)).map fun t =>
      Response.ofJson 200 (Response.taskBody t)
  | deleteTask id =>
    refine Database.Atomic.map (Database.atomic_scope none (Work.Settles.of_spares ?_)) fun t =>
      Response.ofJson 200 (Response.taskBody t)
    exact (Tasks.spares_delete id).bind_succeeds fun t =>
      (Work.succeeds_note _).bind fun _ => succeeds_pure t
  | start key =>
    exact (Database.atomic_of_spares (Session.spares_start fresh now key.ref)).map fun i =>
      Response.ofJson 201 (Body.interval i)
  | stop key =>
    exact (Database.atomic_of_spares (Session.spares_stop now key.ref)).map fun i =>
      Response.ofJson 200 (Body.interval i)
  | report user bounds =>
    refine Database.atomic_of_spares (Keeps.spares ?_)
    exact (Report.keeps_run now _ _ _).bind fun rows =>
      (Database.keeps_scope none (keeps_reportRows rows)).bind fun _ => keeps_pure _

/-- Readiness is the only call that is answered with a status of its own. -/
theorem status_of_run {fresh : Uuid} {now : Moment} {c : Call} {db db' : Database} {response : Response}
    (h : c.run fresh now db = (.ok response, db')) (hready : c ≠ .ready) :
    response.status = 200 ∨ response.status = 201 := by
  cases c with
  | ready => exact absurd rfl hready
  | health =>
    cases h
    exact .inl rfl
  | createTask draft =>
    obtain ⟨t, rfl⟩ := map_eq_ok h
    exact .inr rfl
  | listTasks limit offset =>
    obtain ⟨tasks, rfl⟩ := map_eq_ok h
    exact .inl rfl
  | getTask id =>
    obtain ⟨t, rfl⟩ := map_eq_ok h
    exact .inl rfl
  | patchTask id patch =>
    obtain ⟨t, rfl⟩ := map_eq_ok h
    exact .inl rfl
  | deleteTask id =>
    obtain ⟨t, rfl⟩ := map_eq_ok h
    exact .inl rfl
  | start key =>
    obtain ⟨i, rfl⟩ := map_eq_ok h
    exact .inr rfl
  | stop key =>
    obtain ⟨i, rfl⟩ := map_eq_ok h
    exact .inl rfl
  | report user bounds =>
    obtain ⟨rows, u, _, hrest⟩ | ⟨_, _, hr⟩ := bind_eq_iff.mp h
    · obtain ⟨body, rfl⟩ := map_eq_ok hrest
      exact .inl rfl
    · cases hr

/-- An answer with a status of 400 or more has changed nothing. -/
theorem ledger_of_status {fresh : Uuid} {now : Moment} {c : Call} {db db' : Database}
    {response : Response} (h : c.run fresh now db = (.ok response, db')) (hstatus : 400 ≤ response.status) :
    db'.ledger = db.ledger := by
  by_cases hready : c = .ready
  · subst hready
    exact (keeps_probe.bind fun _ => keeps_pure _).after h
  · have hfine := status_of_run h hready
    omega

end Call

namespace Outcome

/-- The response of an outcome, whoever may read it. -/
def given : Outcome → Response
  | response r | unforeseen r => r

end Outcome

namespace Service

/-- The service on another database. -/
def onto (s : Service) (db : Database) : Service := { s with database := db }

/-- A response and the database it leaves report the end of a call. -/
structure Reports (status : Int) (left : Database) (call : Except Fault Response × Database) : Prop where
  ledger : left.ledger = call.2.ledger
  accesses : left.accesses = call.2.accesses
  status : ∀ response, call.1 = .ok response → status = response.status

/-- An answer leaves the tables of every database alone, or on every database it reports the end of one
    and the same call. -/
def Relays (fresh : Uuid) (s : Service) (answer : Database → Int × Database) : Prop :=
  (∀ db, (answer db).2.ledger = db.ledger) ∨
    ∃ c : Call, ∀ db, Reports (answer db).1 (answer db).2 (c.run fresh s.clock db)

/-- The status with which an act ends on a database, and what it leaves there. -/
def acted (act : Act) (s : Service) (db : Database) : Int × Database :=
  ((act (s.onto db)).1.given.status, (act (s.onto db)).2.database)

/-- A call is made, unless it asks for readiness without a database. -/
theorem call_eq {fresh : Uuid} {r : Request} {c : Call} {s : Service} (h : c = .ready → s.opened = true)
    (db : Database) :
    call fresh r c (s.onto db) = match c.run fresh s.clock db with
      | (.ok response, db) => (.response response, s.onto db)
      | (.error fault, db) => give r fault (s.onto db) := by
  cases c with
  | ready =>
    obtain ⟨clock, _, opened, origins⟩ := s
    cases (h rfl : opened = true)
    rfl
  | _ => rfl

theorem call_relays (fresh : Uuid) (r : Request) (c : Call) (s : Service) :
    Relays fresh s (acted (call fresh r c) s) := by
  by_cases h : c = .ready → s.opened = true
  · refine .inr ⟨c, fun db => ?_⟩
    rw [acted, call_eq h]
    rcases c.run fresh s.clock db with ⟨f | response, db'⟩
    · refine ⟨rfl, rfl, fun _ hresponse => ?_⟩
      cases hresponse
    · refine ⟨rfl, rfl, fun _ hresponse => ?_⟩
      cases hresponse
      rfl
  · obtain ⟨rfl, hclosed⟩ := Classical.not_imp.mp h
    obtain ⟨clock, _, opened, origins⟩ := s
    cases (Bool.not_eq_true _ ▸ hclosed : opened = false)
    exact .inl fun db => rfl

/-- Goes on with a request whose parts have been checked. -/
def proceed (fresh : Uuid) (r : Request) : Except (List Issue) Call → Act
  | .error is => refuse r is
  | .ok c => call fresh r c

theorem proceed_relays (fresh : Uuid) (r : Request) (checked : Except (List Issue) Call) (s : Service) :
    Relays fresh s (acted (proceed fresh r checked) s) := by
  cases checked with
  | error is => exact .inl fun db => rfl
  | ok c => exact call_relays fresh r c s

theorem follow_of_body {fresh : Uuid} {r : Request} {route : Route} {body : Body}
    (hbody : (if route.hasBody then r.readBody else .ok .missing) = .ok body) (s : Service) :
    follow fresh r route s =
      if route.needsDatabase && !s.opened then give r .notOpened s
      else proceed fresh r (route.read r.target body) s := by
  rw [follow, hbody]
  dsimp only
  cases route.read r.target body <;> rfl

theorem follow_relays (fresh : Uuid) (r : Request) (route : Route) (s : Service) :
    Relays fresh s (acted (follow fresh r route) s) := by
  cases hbody : (if route.hasBody then r.readBody else .ok .missing : Except BadBody Body) with
  | error e =>
    refine .inl fun db => ?_
    rw [acted, follow, hbody]
    cases e <;> rfl
  | ok body =>
    by_cases hclosed : (route.needsDatabase && !s.opened) = true
    · refine .inl fun db => ?_
      have hrefused : follow fresh r route (s.onto db) = give r .notOpened (s.onto db) :=
        (follow_of_body hbody _).trans (if_pos hclosed)
      rw [acted, hrefused]
      rfl
    · have hfollow : acted (follow fresh r route) s =
          acted (proceed fresh r (route.read r.target body)) s := by
        funext db
        have hopen : follow fresh r route (s.onto db) = _ :=
          (follow_of_body hbody _).trans (if_neg hclosed)
        rw [acted, hopen, acted]
      rw [hfollow]
      exact proceed_relays fresh r _ s

theorem dispatch_relays (fresh : Uuid) (r : Request) (s : Service) :
    Relays fresh s (acted (dispatch fresh r) s) := by
  cases hroute : (Route.ofSegments r.target.segments).find? (·.1 = r.method) with
  | some found =>
    have hfollow : dispatch fresh r = follow fresh r found.2 := by
      funext s
      rw [dispatch, hroute]
    rw [hfollow]
    exact follow_relays fresh r found.2 s
  | none =>
    refine .inl fun db => ?_
    rw [acted, dispatch, hroute]
    cases Route.ofSegments r.target.segments <;> rfl

/-- Only the headers and the content of a response change on its way out. -/
theorem finish_eq (fresh : Uuid) (r : Request) (s : Service) (origin : Option String) :
    (answer.finish fresh r s origin).1.status = (dispatch fresh r s).1.given.status ∧
      (answer.finish fresh r s origin).2 = (dispatch fresh r s).2 := by
  have htrimmed (response : Response) : (trimmed r.method response).status = response.status := by
    unfold trimmed
    split <;> rfl
  have hallowing (origins : List String) (response : Response) :
      (response.allowing origins origin).status = response.status := by
    unfold Response.allowing
    split
    · split <;> rfl
    · rfl
  unfold answer.finish
  rcases dispatch fresh r s with ⟨response | response, after⟩
  · exact ⟨(htrimmed _).trans (hallowing _ _), rfl⟩
  · exact ⟨htrimmed _, rfl⟩

theorem answer_relays (fresh : Uuid) (r : Request) (s : Service) :
    Relays fresh s fun db =>
      (((s.onto db).answer fresh r).1.status, ((s.onto db).answer fresh r).2.database) := by
  have hfinish (origin : Option String) : Relays fresh s fun db =>
      ((answer.finish fresh r (s.onto db) origin).1.status,
        (answer.finish fresh r (s.onto db) origin).2.database) := by
    simp only [finish_eq]
    exact dispatch_relays fresh r s
  cases horigin : r.header? "origin" with
  | none =>
    simp only [answer, horigin]
    exact hfinish none
  | some origin =>
    cases hmethod : r.header? "access-control-request-method" with
    | none =>
      simp only [answer, horigin, hmethod]
      exact hfinish (some origin)
    | some method =>
      by_cases hoptions : r.method = "OPTIONS"
      · simp only [answer, horigin, hmethod, if_pos hoptions]
        exact .inl fun db => rfl
      · simp only [answer, horigin, hmethod, if_neg hoptions]
        exact hfinish (some origin)

end Service
end Http

/-- The operations that users and services can ask for. -/
inductive Operation where
  | openInterval (key : KeyRef)
  | beginInterval (fresh : Uuid) (key : KeyRef) (started : Moment)
  | closeInterval (id : Uuid) (stopped : Moment)
  | intervalsOverlapping (user : Option Ident) (start stop : Moment)
  | start (fresh : Uuid) (now : Moment) (key : KeyRef)
  | stop (now : Moment) (key : KeyRef)
  | report (now : Moment) (user : Option Ident) (start stop : Moment)
  /-- A request to a service, with the id of an interval it may begin. -/
  | request (service : Http.Service) (fresh : Uuid) (r : Http.Request)

namespace Operation

/-- Whether a use of a database fails, and what it leaves there. -/
def ofUse {α : Type} (x : Use α) (db : Database) : Bool × Database :=
  (!(x db).1.isOk, (x db).2)

/-- Whether an operation fails on a database, and what it leaves there. -/
def run : Operation → Database → Bool × Database
  | openInterval key => ofUse (Primitive.openInterval key)
  | beginInterval fresh key started => ofUse (Primitive.beginInterval fresh key started)
  | closeInterval id stopped => ofUse (Primitive.closeInterval id stopped)
  | intervalsOverlapping user first last => ofUse (Primitive.intervalsOverlapping user first last)
  | start fresh now key => ofUse (Session.start Database.intervals fresh now key)
  | stop now key => ofUse (Session.stop Database.intervals now key)
  | report now user first last => ofUse (Report.run Database.intervals now user first last)
  | request service fresh r => fun db =>
    let (response, after) := (service.onto db).answer fresh r
    (decide (400 ≤ response.status), after.database)

theorem ledger_of_ofUse {α : Type} {x : Use α} (h : Database.Atomic x) {db : Database}
    (hfailed : (ofUse x db).1 = true) (hcalm : ¬ Database.StruckLate (fun db => (ofUse x db).2) db) :
    (ofUse x db).2.ledger = db.ledger := by
  rcases hx : x db with ⟨f | a, db'⟩
  · rw [ofUse, hx]
    exact h db f db' hx hcalm
  · rw [ofUse, hx] at hfailed
    cases hfailed

/-- An operation that fails leaves the tables as they were, unless an error came after a commit. -/
theorem failed_leaves_tables (op : Operation) (db : Database) (hfailed : (op.run db).1 = true)
    (hcalm : ¬ Database.StruckLate (fun db => (op.run db).2) db) : (op.run db).2.ledger = db.ledger := by
  cases op with
  | openInterval key =>
    exact ledger_of_ofUse (Database.atomic_of_spares (Primitive.keeps_openInterval key).spares) hfailed
      hcalm
  | beginInterval fresh key started =>
    exact ledger_of_ofUse (Database.atomic_of_spares (Primitive.spares_beginInterval fresh key started))
      hfailed hcalm
  | closeInterval id stopped =>
    exact ledger_of_ofUse (Database.atomic_of_spares (Primitive.spares_closeInterval id stopped)) hfailed
      hcalm
  | intervalsOverlapping user first last =>
    exact ledger_of_ofUse (Database.atomic_of_spares
      (Primitive.keeps_intervalsOverlapping user first last).spares) hfailed hcalm
  | start fresh now key =>
    exact ledger_of_ofUse (Database.atomic_of_spares (Session.spares_start fresh now key)) hfailed hcalm
  | stop now key =>
    exact ledger_of_ofUse (Database.atomic_of_spares (Session.spares_stop now key)) hfailed hcalm
  | report now user first last =>
    exact ledger_of_ofUse (Database.atomic_of_spares (Report.keeps_run now user first last).spares) hfailed
      hcalm
  | request service fresh r =>
    obtain hstill | ⟨c, hreports⟩ := service.answer_relays fresh r
    · exact hstill db
    · have hstatus : 400 ≤ ((service.onto db).answer fresh r).1.status := of_decide_eq_true hfailed
      have hreport := hreports db
      have hcalm' : ¬ Database.StruckLate (fun db => (c.run fresh service.clock db).2) db :=
        mt (Database.struckLate_congr (fun db => (hreports db).ledger)
          (fun db => (hreports db).accesses) db).mpr hcalm
      refine hreport.ledger.trans ?_
      rcases hrun : c.run fresh service.clock db with ⟨f | response, db'⟩
      · exact c.atomic_run fresh service.clock db f db' hrun hcalm'
      · rw [hrun] at hreport
        exact Http.Call.ledger_of_status hrun (hreport.status response rfl ▸ hstatus)

/-- A task has been removed from the working copy when the commit is cancelled. -/
theorem cancelled_deletion :
    let db : Database :=
      { ledger := { tasks := some [⟨7, "review"⟩] }
        disruption := fun _ verb => if verb = .commit then some (.fault .cancelled) else none }
    let op : Operation := .request { clock := ⟨5, some .utc, by decide⟩ } (.ofNat 0xa1)
      { method := "DELETE", target := ⟨"/api/v1/tasks/7".toList, []⟩ }
    (op.run db).1 = true ∧ ¬ Database.StruckLate (fun db => (op.run db).2) db ∧
      (op.run db).2.ledger = db.ledger := by
  intro db op
  have hfailed : (op.run db).1 = true := rfl
  have hcalm : ¬ Database.StruckLate (fun db => (op.run db).2) db := by
    rintro ⟨k, verb, e, hk, _, hlate⟩
    have haccesses : (op.run db).2.accesses = 3 := rfl
    change k < (op.run db).2.accesses at hk
    obtain rfl | rfl | rfl : k = 0 ∨ k = 1 ∨ k = 2 := by omega
    · exact hlate rfl
    · exact hlate rfl
    · exact hlate rfl
  exact ⟨hfailed, hcalm, failed_leaves_tables op db hfailed hcalm⟩

end Operation
end Worklog
