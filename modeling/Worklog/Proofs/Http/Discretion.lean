import Worklog.Proofs.Database.Reworded
import Worklog.Proofs.Http.Labels

namespace Worklog

open Run

namespace Session

theorem discreet_keyed {α : Type} (key : KeyRef) {x : Use α} (hx : Database.Discreet x) :
    Database.Discreet (keyed key x) :=
  hx.mapError fun _ _ h => h.withKey key.user key.task

theorem discreet_note (r : Log.Record) : Database.Discreet (Database.intervals.note r) :=
  lockstep_change fun _ _ hab => Database.reworded_note hab r r

theorem discreet_start (fresh : Uuid) (now : Moment) (key : KeyRef) :
    Database.Discreet (start Database.intervals fresh now key) := by
  refine (discreet_keyed key (Primitive.discreet_beginInterval fresh key now)).next fun begun => ?_
  cases begun with
  | conflict k => exact (discreet_note _).next fun _ => lockstep_fail (.same _)
  | interval i => exact (discreet_note _).next fun _ => lockstep_pure rfl

theorem discreet_close (key : KeyRef) (found : Interval) (now : Moment) :
    Database.Discreet (close Database.intervals key found now) := by
  refine (discreet_keyed key (Primitive.discreet_closeInterval found.id now)).next fun closed => ?_
  cases closed with
  | notFound id => exact (discreet_note _).next fun _ => lockstep_fail (.same _)
  | interval i => exact (discreet_note _).next fun _ => lockstep_pure rfl

theorem discreet_stop (now : Moment) (key : KeyRef) :
    Database.Discreet (stop Database.intervals now key) := by
  refine (discreet_keyed key (Primitive.discreet_openInterval key)).next fun found => ?_
  cases found with
  | none => exact (discreet_note _).next fun _ => lockstep_fail (.same _)
  | some i => exact discreet_close key i now

end Session

namespace Report

theorem discreet_run (now : Moment) (user : Option Ident) (start stop : Moment) :
    Database.Discreet (run Database.intervals now user start stop) := by
  refine (lockstep_ofExcept (.refl .same _)).next fun window => ?_
  split
  · exact lockstep_pure rfl
  · refine (Primitive.discreet_intervalsOverlapping _ _ _).next fun is => ?_
    exact (lockstep_ofExcept (.refl .same _)).next fun rows => (Session.discreet_note _).next fun _ =>
      lockstep_pure rfl

end Report

namespace Http

/-- The words in which the database does not answer are for the log. -/
theorem discreet_probe : Database.Discreet probe := by
  refine Lockstep.handle ?_ fun _ _ _ => ?_
  · exact (Database.discreet_scope none (Work.discreet_read _)).next fun _ => lockstep_pure rfl
  · exact (lockstep_change fun _ _ hab => Database.reworded_note hab _ _).next fun _ => lockstep_pure rfl

theorem discreet_reportRows (rows : List TaskTime) : Work.Discreet (reportRows rows) :=
  (Tasks.discreet_descriptions _).next fun _ => Work.discreet_pure _

theorem Call.discreet_run (fresh : Uuid) (now : Moment) (c : Call) : Database.Discreet (c.run fresh now) := by
  cases c with
  | health => exact lockstep_pure rfl
  | ready => exact discreet_probe.next fun _ => lockstep_pure rfl
  | createTask draft =>
    refine (Database.discreet_scope none ?_).next fun _ => lockstep_pure rfl
    exact (Tasks.discreet_create _).next fun t => (Work.discreet_note _).next fun _ => Work.discreet_pure t
  | listTasks limit offset =>
    exact (Database.discreet_scope none (Work.discreet_ask _)).next fun _ => lockstep_pure rfl
  | getTask id =>
    exact (Database.discreet_scope none (Tasks.discreet_get id)).next fun _ => lockstep_pure rfl
  | patchTask id patch =>
    exact (Database.discreet_scope none (Tasks.discreet_describe id _)).next fun _ => lockstep_pure rfl
  | deleteTask id =>
    refine (Database.discreet_scope none ?_).next fun _ => lockstep_pure rfl
    exact (Tasks.discreet_delete id).next fun t => (Work.discreet_note _).next fun _ => Work.discreet_pure t
  | start key => exact (Session.discreet_start fresh now key.ref).next fun _ => lockstep_pure rfl
  | stop key => exact (Session.discreet_stop now key.ref).next fun _ => lockstep_pure rfl
  | report user bounds =>
    refine (Report.discreet_run now _ _ _).next fun rows => ?_
    exact (Database.discreet_scope none (discreet_reportRows rows)).next fun _ => lockstep_pure rfl

/-- Faults that differ in their words are reported alike. -/
theorem Outcome.ofFault_reworded {f f' : Fault} (h : f.Reworded f') : ofFault f = ofFault f' := by
  cases h <;> rfl

namespace Service

variable {s t : Service} {fresh : Uuid} {r : Request}

/-- Two services that differ in the log and in the words of what disturbs their databases. -/
structure Reworded (s t : Service) : Prop where
  clock : t.clock = s.clock
  opened : t.opened = s.opened
  origins : t.origins = s.origins
  database : s.database.Reworded t.database

/-- An act that gives the same outcome on two such services, and leaves two such services. -/
def DiscreetAct (act : Act) : Prop := ∀ s t : Service, s.Reworded t →
  (act s).1 = (act t).1 ∧ (act s).2.Reworded (act t).2

theorem reworded_note (h : s.Reworded t) (record record' : Log.Record) :
    (s.note record).Reworded (t.note record') :=
  ⟨h.clock, h.opened, h.origins, Database.reworded_note h.database record record'⟩

theorem discreet_refuse (r : Request) (is : List Issue) : DiscreetAct (refuse r is) :=
  fun _ _ h => ⟨rfl, reworded_note h _ _⟩

theorem give_reworded (h : s.Reworded t) {f f' : Fault} (hf : f.Reworded f') :
    (give r f s).1 = (give r f' t).1 ∧ (give r f s).2.Reworded (give r f' t).2 :=
  ⟨Outcome.ofFault_reworded hf, reworded_note h _ _⟩

theorem discreet_call (fresh : Uuid) (r : Request) (c : Call) : DiscreetAct (call fresh r c) := by
  intro s t h
  -- A closed service answers the question whether it is ready without running the call.
  by_cases hready : c = .ready → s.opened = true
  · have hs := @call_eq fresh r c s hready s.database
    have ht := @call_eq fresh r c t (fun hc => h.opened.trans (hready hc)) t.database
    obtain ⟨hends, hafter⟩ := Call.discreet_run fresh s.clock c _ _ h.database
    rw [h.clock] at ht
    rcases hrun : c.run fresh s.clock s.database with ⟨x, a⟩
    rcases hrun' : c.run fresh s.clock t.database with ⟨y, b⟩
    rw [hrun, hrun'] at hends hafter
    rw [hrun] at hs
    rw [hrun'] at ht
    have hnext : (s.onto a).Reworded (t.onto b) := ⟨h.clock, h.opened, h.origins, hafter⟩
    change call fresh r c s = _ at hs
    change call fresh r c t = _ at ht
    rw [hs, ht]
    cases hends with
    | ok hsame =>
      subst hsame
      exact ⟨rfl, hnext⟩
    | error hf => exact give_reworded hnext hf
  · obtain ⟨rfl, hclosed⟩ := Classical.not_imp.mp hready
    have hs : s.opened = false := Bool.eq_false_iff.mpr hclosed
    have ht : t.opened = false := h.opened.trans hs
    simp only [call, hs, ht]
    exact ⟨trivial, h⟩

theorem discreet_proceed (fresh : Uuid) (r : Request) (checked : Except (List Issue) Call) :
    DiscreetAct (proceed fresh r checked) := by
  cases checked with
  | error is => exact discreet_refuse r is
  | ok c => exact discreet_call fresh r c

theorem discreet_follow (fresh : Uuid) (r : Request) (route : Route) : DiscreetAct (follow fresh r route) := by
  intro s t h
  cases hbody : (if route.hasBody then r.readBody else .ok .missing : Except BadBody Body) with
  | error e =>
    simp only [follow, hbody]
    cases e with
    | noJson position => exact discreet_refuse r _ s t h
    | unreadable => exact ⟨rfl, h⟩
  | ok body =>
    rw [follow_of_body hbody, follow_of_body hbody, h.opened]
    split
    · exact give_reworded h (.same _)
    · exact discreet_proceed fresh r _ s t h

theorem discreet_dispatch (fresh : Uuid) (r : Request) : DiscreetAct (dispatch fresh r) := by
  intro s t h
  cases hroute : (Route.ofSegments r.target.segments).find? (·.1 = r.method) with
  | some found =>
    simp only [dispatch, hroute]
    exact discreet_follow fresh r found.2 s t h
  | none =>
    simp only [dispatch, hroute]
    cases Route.ofSegments r.target.segments with
    | nil => exact ⟨rfl, h⟩
    | cons first rest => exact ⟨rfl, h⟩

theorem finish_reworded (h : s.Reworded t) (fresh : Uuid) (r : Request) (origin : Option String) :
    (answer.finish fresh r s origin).1 = (answer.finish fresh r t origin).1 ∧
      (answer.finish fresh r s origin).2.Reworded (answer.finish fresh r t origin).2 := by
  obtain ⟨hsame, hnext⟩ := discreet_dispatch fresh r s t h
  unfold answer.finish
  rcases hs : dispatch fresh r s with ⟨o, a⟩
  rcases ht : dispatch fresh r t with ⟨o', b⟩
  rw [hs, ht] at hsame hnext
  obtain rfl : o = o' := hsame
  have horigins : b.origins = a.origins := hnext.origins
  cases o with
  | response response =>
    dsimp only
    rw [horigins]
    exact ⟨rfl, hnext⟩
  | unforeseen response => exact ⟨rfl, hnext⟩

theorem answer_reworded (h : s.Reworded t) (fresh : Uuid) (r : Request) :
    (s.answer fresh r).1 = (t.answer fresh r).1 ∧ (s.answer fresh r).2.Reworded (t.answer fresh r).2 := by
  cases horigin : r.header? "origin" with
  | none =>
    simp only [answer, horigin]
    exact finish_reworded h fresh r none
  | some origin =>
    cases hmethod : r.header? "access-control-request-method" with
    | none =>
      simp only [answer, horigin, hmethod]
      exact finish_reworded h fresh r (some origin)
    | some method =>
      by_cases hoptions : r.method = "OPTIONS"
      · simp only [answer, horigin, hmethod, if_pos hoptions, h.origins]
        exact ⟨trivial, h⟩
      · simp only [answer, horigin, hmethod, if_neg hoptions]
        exact finish_reworded h fresh r (some origin)

theorem visit_reworded (h : s.Reworded t) (v : Visit) :
    (s.visit v).1 = (t.visit v).1 ∧ (s.visit v).2.Reworded (t.visit v).2 :=
  have hnow : (s.atTime v.now).Reworded (t.atTime v.now) := ⟨rfl, h.opened, h.origins, h.database⟩
  answer_reworded hnow v.fresh v.request

theorem after_reworded (h : s.Reworded t) (visits : List Visit) :
    (s.after visits).Reworded (t.after visits) := by
  induction visits generalizing s t with
  | nil => exact h
  | cons v rest ih => exact ih (visit_reworded h v).2

/-- What a visit asks for ends with a fault, or there is no database for it. -/
inductive FailsWith (s : Service) (v : Visit) : Fault → Prop
  | run {c : Call} {f : Fault} (asks : v.request.asks = some c) (opened : s.opened = true)
      (fails : (c.run v.fresh v.now s.database).1 = .error f) : FailsWith s v f
  | closed {c : Call} {route : Route} (asks : v.request.asks = some c) (opened : s.opened = false)
      (routed : v.request.route? = some route) (needed : route.needsDatabase = true) :
      FailsWith s v .notOpened

theorem asks_of_fails {v : Visit} {f : Fault} (h : FailsWith s v f) : ∃ c, v.request.asks = some c := by
  cases h with
  | run asks => exact ⟨_, asks⟩
  | closed asks => exact ⟨_, asks⟩

/-- Whatever has failed, the fault is what is reported. -/
theorem dispatch_of_fails {v : Visit} {f : Fault} (h : FailsWith s v f) :
    (dispatch v.fresh v.request (s.atTime v.now)).1 = .ofFault f := by
  cases h with
  | @run c f asks opened fails =>
    have hopen : (s.atTime v.now).opened = true := opened
    have hcall := @call_eq v.fresh v.request c (s.atTime v.now) (fun _ => hopen) s.database
    change call v.fresh v.request c (s.atTime v.now) = _ at hcall
    rcases hrun : c.run v.fresh v.now s.database with ⟨x, db⟩
    rw [hrun] at fails
    obtain rfl : x = .error f := fails
    change c.run v.fresh (s.atTime v.now).clock s.database = _ at hrun
    rw [hrun] at hcall
    rw [dispatch_of_asks asks hopen, hcall]
    rfl
  | @closed c route asks opened routed needed =>
    have hclosed : (s.atTime v.now).opened = false := opened
    obtain ⟨found, body, hfound, hbody, _⟩ := find_of_asks asks
    obtain rfl : found.2 = route := by simpa [Request.route?, hfound] using routed
    rw [dispatch, hfound]
    dsimp only
    rw [follow_of_body hbody, needed, hclosed]
    rfl

/-- The response to a fault that is no failure says nothing of it. -/
theorem visit_of_unhandled {v : Visit} {f : Fault} (h : FailsWith s v f) (hf : ∀ x, f ≠ .failure x) :
    (s.visit v).1 = .internal := by
  obtain ⟨c, hasks⟩ := asks_of_fails h
  have hdispatch := dispatch_of_fails h
  have hunforeseen : Outcome.ofFault f = .unforeseen .internal := by
    cases f with
    | failure x => exact absurd rfl (hf x)
    | _ => rfl
  obtain ⟨hoptions, hhead⟩ := method_of_asks hasks
  have hanswer : (s.visit v).1 = _ := congrArg Prod.fst (answer_eq_finish hoptions v.fresh (s.atTime v.now))
  rw [hanswer]
  unfold answer.finish
  rcases houtcome : dispatch v.fresh v.request (s.atTime v.now) with ⟨o, t⟩
  rw [houtcome, hunforeseen] at hdispatch
  obtain rfl : o = .unforeseen .internal := hdispatch
  exact if_neg hhead

/-- The words of an error that disturbs the database do not show in any response, and no response tells
    one unhandled fault from another. -/
theorem responses_discreet (s : Service) (d : Disruption) (hd : s.database.disruption.Reworded d) :
    (∀ (visits : List Visit) (v : Visit), ((s.after visits).visit v).1 =
      ((({ s with database := { s.database with disruption := d } } : Service).after visits).visit v).1) ∧
    ∀ (a b : Service) (v w : Visit) (f g : Fault), FailsWith a v f → FailsWith b w g →
      (∀ x, f ≠ .failure x) → (∀ x, g ≠ .failure x) →
      (a.visit v).1 = (b.visit w).1 ∧ (a.visit v).1.status = 500 := by
  refine ⟨fun visits v => ?_, fun a b v w f g hv hw hf hg => ?_⟩
  · have hstart : s.Reworded { s with database := { s.database with disruption := d } } :=
      ⟨rfl, rfl, rfl, rfl, rfl, rfl, hd⟩
    exact (visit_reworded (after_reworded hstart visits) v).1
  · rw [visit_of_unhandled hv hf, visit_of_unhandled hw hg]
    exact ⟨rfl, rfl⟩

/-- A service with empty tables whose first use of the database meets a broken disk and whose later ones are
    cancelled, in free words. -/
def troubled (words : String) : Service where
  clock := ⟨0, some .utc, by decide⟩
  database :=
    { ledger := { tasks := some [] }
      disruption := fun n _ =>
        some (if n = 0 then Rejection.error .operational words else .fault (.foreign "Cancelled" words)) }

/-- A creation that meets the broken disk does not tell the words, and one that is cancelled is answered as
    a number of more than 64 bits is. -/
theorem troubled_discreet :
    let create := posted 0 "/api/v1/tasks" "\x7b\"description\": \"write report\"\x7d"
    let wide : Visit :=
      { posted 1 "" "" with
        request := { (posted 1 "/api/v1/tasks/9223372036854775808" "").request with method := "GET" } }
    let later (words : String) : Service :=
      { troubled words with database := { (troubled words).database with accesses := 1 } }
    let calm : Service := { troubled "" with database := {} }
    (troubled "no /var/a.db").database.disruption.Reworded (troubled "no /srv/b.db").database.disruption ∧
      ((troubled "no /var/a.db").visit create).1 = ((troubled "no /srv/b.db").visit create).1 ∧
      ((troubled "no /var/a.db").visit create).1.status = 503 ∧
      FailsWith (later "bye") create (.foreign "Cancelled" "bye") ∧ FailsWith calm wide .tooWide ∧
      ((later "bye").visit create).1 = (calm.visit wide).1 := by
  intro create wide later calm
  have hreworded : (troubled "no /var/a.db").database.disruption.Reworded
      (troubled "no /srv/b.db").database.disruption := by
    intro n verb
    by_cases hn : n = 0
    · subst hn
      exact .some (.storage rfl (by decide +kernel))
    · simp only [troubled, if_neg hn]
      exact .some (.fault (.foreign _ _ _))
  have hbroken : FailsWith (later "bye") create (.foreign "Cancelled" "bye") :=
    .run (c := .createTask ⟨"write report"⟩) (by decide +kernel) rfl (by rfl)
  have hwide : FailsWith calm wide .tooWide :=
    .run (c := .getTask 9223372036854775808) (by decide +kernel) rfl (by rfl)
  obtain ⟨hsame, halike⟩ := responses_discreet _ _ hreworded
  obtain ⟨hresponse, -⟩ := halike _ _ _ _ _ _ hbroken hwide (fun _ h => by cases h) (fun _ h => by cases h)
  exact ⟨hreworded, hsame [] create, by decide +kernel, hbroken, hwide, hresponse⟩

end Service
end Http
end Worklog
