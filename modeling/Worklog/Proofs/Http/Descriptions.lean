import Worklog.Proofs.Database.Upheld
import Worklog.Proofs.Http.Catalog

namespace Worklog.Http

open Run

/-- What becomes of the answer changes nothing about the tables. -/
theorem upheld_by_map {α β : Type} {P : Ledger → Prop} {x : Use α} {g : α → β} {db : Database}
    (h : P (x db).2.ledger) : P ((do return g (← x) : Use β) db).2.ledger := by
  rcases hx : x db with ⟨e | a, db'⟩
  · rw [hx] at h
    rwa [bind_of_error hx]
  · rw [hx] at h
    rwa [bind_of_ok hx]

namespace Call

variable {fresh : Uuid} {now : Moment} {c : Call} {db : Database} {Q : Task → Prop}

/-- A property of every stored task stays true if it is true of what a creation or a change stores. -/
theorem eachTask_of_run
    (hcreate : ∀ draft, c = .createTask draft → ∀ t : Task, t.description = draft.description →
      Integer.fits64 t.id = true → Q t)
    (hpatch : ∀ id patch d, c = .patchTask id patch → patch.description = some d →
      ∀ t, Q t → Q { t with description := d })
    (h : db.ledger.EachTask Q) : (c.run fresh now db).2.ledger.EachTask Q := by
  cases c with
  | health => exact h
  | ready =>
    have hledger : ((ready).run fresh now db).2.ledger = db.ledger :=
      (keeps_probe.bind fun _ => keeps_pure _) db
    rwa [hledger]
  | createTask draft =>
    have hwork : Work.Upholds (Ledger.EachTask Q) (do
        let t ← Tasks.create draft.description
        Work.note (taskRecord "Task created" t.id)
        return t) :=
      (Tasks.upholds_create fun l t l' hinsert hl => hl.insertTask (hcreate draft rfl) hinsert).bind
        fun t => (Work.upholds_note _).bind fun _ => Work.upholds_pure t
    exact upheld_by_map (Database.upheld_by_scope hwork h)
  | listTasks limit offset =>
    exact upheld_by_map (Database.upheld_by_scope (Work.upholds_ask _) h)
  | getTask id => exact upheld_by_map (Database.upheld_by_scope (Tasks.upholds_get id) h)
  | patchTask id patch =>
    have hwork : Work.Upholds (Ledger.EachTask Q) (Tasks.describe id patch.description) :=
      Tasks.upholds_describe fun d hd _ l l' hdescribe hl =>
        hl.describeTask (hpatch id patch d rfl hd) hdescribe
    exact upheld_by_map (Database.upheld_by_scope hwork h)
  | deleteTask id =>
    have hwork : Work.Upholds (Ledger.EachTask Q) (do
        let t ← Tasks.delete id
        Work.note (taskRecord "Task deleted" id)
        return t) :=
      (Tasks.upholds_delete fun l l' hdelete hl => hl.deleteTask hdelete).bind
        fun t => (Work.upholds_note _).bind fun _ => Work.upholds_pure t
    exact upheld_by_map (Database.upheld_by_scope hwork h)
  | start key =>
    have htasks := (Session.start_follows fresh now key.ref db).touched.frame.1
    exact upheld_by_map ((Ledger.eachTask_congr htasks).mpr h)
  | stop key =>
    exact upheld_by_map ((Ledger.eachTask_congr (tasks_of_stop now key.ref db)).mpr h)
  | report user bounds =>
    have hkeeps : Keeps Database.ledger ((report user bounds).run fresh now) :=
      (Report.keeps_run now _ _ _).bind fun rows =>
        (Database.keeps_scope none (keeps_reportRows rows)).bind fun _ => keeps_pure _
    rwa [hkeeps db]

end Call

namespace Request

variable {r : Request}

theorem normal_of_createTask {draft : TaskDraft} (h : r.asks = some (.createTask draft)) :
    Description.Normal draft.description := by
  obtain ⟨_, ms, _, hms⟩ := asks_createTask_iff.mp h
  obtain ⟨v, _, hv⟩ := TaskDraft.ofMembers_eq_ok_iff.mp hms
  exact Description.normal_of_ofJson hv

theorem normal_of_patchTask {id : Int} {patch : TaskPatch} {d : String}
    (h : r.asks = some (.patchTask id patch)) (hd : patch.description = some d) : Description.Normal d := by
  obtain ⟨_, ms, _, _, _, hms⟩ := asks_patchTask_iff.mp h
  obtain ⟨_, rfl⟩ | ⟨v, _, _, hv⟩ := TaskPatch.ofMembers_eq_ok_iff.mp hms
  · cases hd
  · rw [hd] at hv
    exact Description.normal_of_ofJson? hv

end Request

namespace Service

variable {s : Service} {v : Visit} {id : Int} {d : String}

/-- A task as it may be stored. -/
def StoredWell (t : Task) : Prop := Description.Normal t.description ∧ Integer.fits64 t.id = true

theorem storedWell_visit (hopened : s.opened = true) (h : s.database.ledger.EachTask StoredWell) :
    (s.visit v).2.database.ledger.EachTask StoredWell := by
  cases hasks : v.request.asks with
  | none =>
    rw [(visit_of_unasked hasks s).2]
    exact h
  | some c =>
    rw [(visit_of_asks hasks hopened).2.2]
    apply Call.eachTask_of_run _ _ h
    · rintro draft rfl t ht hfits
      exact ⟨ht ▸ Request.normal_of_createTask hasks, hfits⟩
    · rintro id patch d rfl hd t ht
      exact ⟨Request.normal_of_patchTask hasks hd, ht.2⟩

theorem storedWell_after (hopened : s.opened = true) (h : s.database.ledger.EachTask StoredWell)
    (visits : List Visit) : (s.after visits).database.ledger.EachTask StoredWell := by
  induction visits generalizing s with
  | nil => exact h
  | cons v rest ih => exact ih (opened_visit hopened v) (storedWell_visit hopened h)

/-- A task that is given the description that it has is not written. -/
theorem ledger_of_same {fresh : Uuid} {now : Moment} {db : Database} (h : db.ledger.catalog id = some d) :
    ((Call.patchTask id ⟨some d, true⟩).run fresh now db).2.ledger = db.ledger := by
  have hwork : Work.Upholds (· = db.ledger) (Tasks.describe id (some d)) := by
    apply Tasks.upholds_describe
    rintro _ ⟨⟩ ⟨_, tasks, t, rfl, htasks, hfound, hnew⟩
    obtain ⟨_, t', htasks', hfound', _, _, rfl⟩ := Ledger.find_of_catalog h
    cases htasks.symm.trans htasks'
    cases hfound.symm.trans hfound'
    exact absurd rfl hnew
  exact upheld_by_map (P := (· = db.ledger)) (Database.upheld_by_scope hwork rfl)

theorem answer_of_same {fresh : Uuid} {now : Moment} {db : Database} (hcalm : db.Undisturbed)
    (hstored : db.ledger.EachTask StoredWell) (h : db.ledger.catalog id = some d) :
    ((Call.patchTask id ⟨some d, true⟩).run fresh now db).1 =
      .ok (.ofJson 200 (Response.taskBody ⟨id, d⟩)) := by
  obtain ⟨tasks, task, htasks, hfound, hmem, rfl, rfl⟩ := Ledger.find_of_catalog h
  have hid := (hstored tasks htasks task hmem).2
  obtain ⟨t, hdescribe, _⟩ := @Tasks.describe_unchanged ⟨db, db.ledger⟩ _ _ _ hcalm htasks hid hfound
    (some task.description) (.inr rfl)
  obtain ⟨db', hscope, _⟩ := @Database.scope_of_work _ db none _ _ _ hdescribe
  exact congrArg Prod.fst (bind_of_ok hscope)

/-- What is accepted as a description, what any sequence of requests leaves stored of it, and what becomes
    of a stored description that is handed in for its task. -/
theorem descriptions_normal (s : Service) (hopened : s.opened = true)
    (hfresh : s.database.ledger.tasks = some []) (visits : List Visit) :
    (∀ ms v, Json.get? "description" (.obj ms) = some v →
      (∀ d, TaskDraft.ofMembers ms = .ok ⟨d⟩ ↔
        ∃ text, v = .str text ∧ Description.Acceptable text ∧ d = Blank.strip text) ∧
      (∀ d, TaskDraft.ofMembers ms = .ok ⟨d⟩ → Description.Normal d ∧
        TaskDraft.ofMembers [("description", .str d)] = .ok ⟨d⟩) ∧
      (v ≠ .null → TaskPatch.ofMembers ms =
        (TaskDraft.ofMembers ms).map fun draft => ⟨some draft.description, true⟩)) ∧
    (s.after visits).database.ledger.EachTask (fun t => Description.Normal t.description) ∧
    ∀ (v : Visit) (text : String) (id : Int) (d : String),
      v.request.route? = some (.patchTask text) → Integer.parse text = .ok id →
      v.request.description? = some (.str d) →
      (s.after visits).database.ledger.catalog id = some d →
      ((s.after visits).visit v).2.database.ledger = (s.after visits).database.ledger ∧
      ((s.after visits).database.Undisturbed → ((s.after visits).visit v).1.status = 200 ∧
        ((s.after visits).visit v).1.content = .json (Response.taskBody ⟨id, d⟩)) := by
  have hempty : s.database.ledger.EachTask StoredWell := by
    intro tasks htasks t ht
    cases hfresh.symm.trans htasks
    cases ht
  have hstored := storedWell_after hopened hempty visits
  refine ⟨fun ms v hget => ⟨fun d => ?_, fun d hd => ?_, TaskPatch.ofMembers_of_ne_null hget⟩,
    fun tasks htasks t ht => (hstored tasks htasks t ht).1, ?_⟩
  · simp only [TaskDraft.ofMembers_eq_ok_iff, hget, Option.some.injEq, exists_eq_left',
      Description.ofJson_eq_ok_iff]
  · obtain ⟨_, _, hv⟩ := TaskDraft.ofMembers_eq_ok_iff.mp hd
    have hnormal := Description.normal_of_ofJson hv
    exact ⟨hnormal, TaskDraft.ofMembers_eq_ok_iff.mpr ⟨_, rfl, Description.ofJson_of_normal hnormal⟩⟩
  · intro v text id d hroute hid hdescription hentry
    obtain ⟨ms, hbody, hget⟩ := Request.members_of_description hdescription
    have hnormal : Description.Normal d := by
      obtain ⟨tasks, t, htasks, _, hmem, _, rfl⟩ := Ledger.find_of_catalog hentry
      exact (hstored tasks htasks t hmem).1
    have hpatch : TaskPatch.ofMembers ms = .ok ⟨some d, true⟩ := by
      have hread := Description.ofJson_of_normal hnormal
      exact TaskPatch.ofMembers_eq_ok_iff.mpr (.inr ⟨_, hget, rfl, congrArg (Except.map some) hread⟩)
    have hasks := Request.asks_patchTask_iff.mpr ⟨text, ms, hroute, hid, hbody, hpatch⟩
    have hopen := opened_after hopened visits
    obtain ⟨_, _, hledger⟩ := visit_of_asks hasks hopen
    refine ⟨hledger.trans (ledger_of_same hentry), fun hcalm => ?_⟩
    have hopen' : ((s.after visits).atTime v.now).opened = true := hopen
    obtain ⟨hstatus, hcontent, _⟩ := @answer_of_asks v.fresh _ _ _ hasks hopen'
    have hanswer := @answer_of_same id d v.fresh v.now _ hcalm hstored hentry
    refine ⟨hstatus.trans ?_, hcontent.trans ?_⟩
    · exact congrArg (fun x => (Response.ofEnd x).status) hanswer
    · exact congrArg (fun x => (Response.ofEnd x).content) hanswer

/-- A blank before and one after it are dropped, and the description that is stored then goes in once more
    without a change. -/
theorem padded_description_normal :
    let s : Service := { clock := ⟨0, some .utc, by decide⟩ }
    let create := posted 0 "/api/v1/tasks" "\x7b\"description\": \"\\u3000write report\\n\"\x7d"
    let change : Visit :=
      { posted 1 "" "" with
        request := { (posted 1 "/api/v1/tasks/1" "\x7b\"description\": \"write report\"\x7d").request with
          method := "PATCH" } }
    s.opened = true ∧ s.database.ledger.tasks = some [] ∧
      (s.after [create]).database.ledger.tasks = some [⟨1, "write report"⟩] ∧
      Description.Normal "write report" ∧
      ((s.after [create]).visit change).2.database.ledger = (s.after [create]).database.ledger ∧
      ((s.after [create]).visit change).1.status = 200 := by
  intro s create change
  have htasks : (s.after [create]).database.ledger.tasks = some [⟨1, "write report"⟩] := by decide +kernel
  obtain ⟨_, hnormal, hsame⟩ := descriptions_normal s rfl rfl [create]
  have hentry : (s.after [create]).database.ledger.catalog 1 = some "write report" := by
    rw [Ledger.catalog, htasks]
    rfl
  have hdescription : change.request.description? = some (.str "write report") := by
    have htext : (change.request.description?.bind fun v => (Settings.text v).toOption) =
        some "write report" := by decide +kernel
    obtain ⟨v, hv, hread⟩ := Option.bind_eq_some_iff.mp htext
    cases v with
    | str d => exact hv.trans (congrArg (some ∘ Json.str) (Option.some.inj hread))
    | _ => cases hread
  obtain ⟨hledger, hcalm⟩ := hsame change "1" 1 "write report" (by decide +kernel) (by decide +kernel)
    hdescription hentry
  refine ⟨rfl, rfl, htasks, hnormal _ htasks ⟨1, "write report"⟩ (List.mem_singleton.mpr rfl), hledger, ?_⟩
  have hnew : create.request.asks = some (.createTask ⟨"write report"⟩) := by decide +kernel
  have hbegun : s.Calm := ⟨rfl, fun _ _ => rfl, [], rfl, by decide, by decide⟩
  have hon : ∀ v ∈ [create], OnTasks v := by
    intro v hv
    rw [List.mem_singleton.mp hv]
    exact ⟨_, hnew, trivial⟩
  exact (hcalm (hbegun.serves_all hon).1.calm).1

/-- A string that is one unpaired surrogate is a string for JSON, and one character long, but no text. It is
    refused as a description. -/
theorem unpaired_surrogate_refused :
    Json.parse "\"\\ud800\"" = .ok .broken ∧ Json.kindName .broken = "str" ∧
      TaskDraft.ofMembers [("description", .broken)] = .error [⟨["description"], .brokenString⟩] ∧
      (({ clock := ⟨0, some .utc, by decide⟩ } : Service).visit
        (posted 0 "/api/v1/tasks" "\x7b\"description\": \"\\ud800\"\x7d")).1.status = 400 :=
  ⟨by rfl, rfl, rfl, by decide +kernel⟩

end Service
end Worklog.Http
