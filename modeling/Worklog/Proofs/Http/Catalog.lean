import Worklog.Proofs.Database.CalmTasks
import Worklog.Proofs.Http.Bodies
import Worklog.Proofs.Http.Labels

namespace Worklog.Http

open Run

namespace Call

/-- The task that a call is about. -/
def task? : Call → Option Int
  | getTask id | patchTask id _ | deleteTask id => some id
  | _ => none

/-- A call on tasks, with an id or an offset that is not negative and has 64 bits. -/
def OnTasks : Call → Prop
  | createTask _ => True
  | listTasks _ offset => (offset : Int) ≤ Integer.greatest64
  | getTask id | patchTask id _ | deleteTask id => 0 ≤ id ∧ id ≤ Integer.greatest64
  | _ => False

end Call

namespace Response

/-- The body that says that a task does not exist. -/
def noTaskBody (id : Int) : Json :=
  .obj [("error", .obj [
    ("code", .str "RESOURCE_NOT_FOUND"),
    ("message", .str ("Task '" ++ Digits.text id ++ "' not found")),
    ("category", .str Category.notFound.name),
    ("severity", .str Severity.warning.name),
    ("timestamp", .str stampText),
    ("context", .obj [("user_id", .null), ("task_id", .null), ("operation", .null)])])]

/-- The body that says that the database did not carry a creation out. -/
def unavailableBody : Json := (Failure.storage .connection "execute").envelope stampText

end Response

open Response in
/-- How a request about tasks is answered, and what becomes of the stored tables. -/
inductive Serves (l : Ledger) (r : Request) : Int → Content → Ledger → Prop
  | created {draft : TaskDraft} {text : String} {id : Int} {after : Ledger}
      (asks : r.asks = some (.createTask draft)) (given : r.description? = some (.str text))
      (free : l.catalog id = none)
      (entry : after.catalog = Function.update l.catalog id (some (Blank.strip text)))
      (rows : after.rows = l.rows) :
      Serves l r 201 (.json (taskBody ⟨id, Blank.strip text⟩)) after
  /-- Every id that a creation could take is taken. -/
  | full {draft : TaskDraft} (asks : r.asks = some (.createTask draft))
      (taken : ∀ id, 1 ≤ id → id ≤ Integer.greatest64 → l.catalog id ≠ none) :
      Serves l r 503 (.json unavailableBody) l
  | shown {id : Int} {d : String} (asks : r.asks = some (.getTask id)) (entry : l.catalog id = some d) :
      Serves l r 200 (.json (taskBody ⟨id, d⟩)) l
  | replaced {id : Int} {patch : TaskPatch} {text old : String} {after : Ledger}
      (asks : r.asks = some (.patchTask id patch)) (given : r.description? = some (.str text))
      (stored : l.catalog id = some old)
      (entry : after.catalog = Function.update l.catalog id (some (Blank.strip text)))
      (rows : after.rows = l.rows) :
      Serves l r 200 (.json (taskBody ⟨id, Blank.strip text⟩)) after
  | kept {id : Int} {patch : TaskPatch} {d : String} (asks : r.asks = some (.patchTask id patch))
      (given : r.description? = none ∨ r.description? = some .null) (entry : l.catalog id = some d) :
      Serves l r 200 (.json (taskBody ⟨id, d⟩)) l
  | removed {id : Int} {d : String} {after : Ledger} (asks : r.asks = some (.deleteTask id))
      (stored : l.catalog id = some d) (entry : after.catalog = Function.update l.catalog id none)
      (rows : after.rows = l.rowsAfter fun task => some task = some (.int id)) :
      Serves l r 200 (.json (taskBody ⟨id, d⟩)) after
  | absent {c : Call} {id : Int} (asks : r.asks = some c) (about : c.task? = some id)
      (missing : l.catalog id = none) : Serves l r 404 (.json (noTaskBody id)) l
  | listed {limit offset : Nat} {ts : List Task} (asks : r.asks = some (.listTasks limit offset))
      (lists : l.catalog.Lists ts) :
      Serves l r 200 (.json (.arr (((ts.drop offset).take limit).map taskBody))) l

/-- Requests that are served one after another. -/
inductive ServesAll : Ledger → List (Request × Response) → Ledger → Prop
  | nil (l : Ledger) : ServesAll l [] l
  | cons {l m n : Ledger} {r : Request} {response : Response} {rest : List (Request × Response)}
      (first : Serves l r response.status response.content m) (others : ServesAll m rest n) :
      ServesAll l ((r, response) :: rest) n

/-- A request that has been served, and what it leaves to the next. -/
structure ServedAs (r : Request) (db : Database) (made : Except Fault Response × Database) : Prop where
  serves : Serves db.ledger r (Response.ofEnd made.1).status (Response.ofEnd made.1).content made.2.ledger
  numbered : ∃ tasks, made.2.ledger.Numbered tasks
  calm : made.2.Undisturbed

namespace Call

variable {α : Type} {fresh : Uuid} {now : Moment} {r : Request} {db : Database} {tasks : List Task}
  {s : Scope} {work : Work α} {x : Except Raised α} {g : α → Response} {id : Int} {l : Ledger}

/-- A request is served as the work of its scope ends. -/
theorem servedAs_of_work (hcalm : db.Undisturbed) (hwork : work ⟨db, db.ledger⟩ = (x, s))
    (hlike : (Scope.saved ⟨db, db.ledger⟩ l).Alike s) (hnumbered : l.Numbered tasks)
    (hserves : Serves db.ledger r (Response.ofEnd ((x.mapError (Raised.settle none)).map g)).status
      (Response.ofEnd ((x.mapError (Raised.settle none)).map g)).content l) :
    ServedAs r db ((do return g (← Database.scope none work) : Use Response) db) := by
  obtain ⟨db', hscope, hlike'⟩ := @Database.scope_of_work _ db none work s x hwork
  have hledger : db'.ledger = l := hlike'.ledger.trans hlike.database.ledger
  have hrun : (do return g (← Database.scope none work) : Use Response) db =
      ((x.mapError (Raised.settle none)).map g, db') := by
    cases x with
    | ok a => exact bind_of_ok hscope
    | error e => exact bind_of_error hscope
  rw [hrun]
  refine ⟨?_, ⟨tasks, ?_⟩, fun n verb => ?_⟩
  · rw [hledger]
    exact hserves
  · rw [hledger]
    exact hnumbered
  · rw [hlike'.disruption, hlike.database.disruption]
    exact hcalm n verb

/-- A record in the log changes nothing about how work ends. -/
theorem noted {f : α → Log.Record} {a : α} (hwork : work ⟨db, db.ledger⟩ = (.ok a, s)) :
    ∃ t, (do
      let a ← work
      Work.note (f a)
      return a : Work α) ⟨db, db.ledger⟩ = (.ok a, t) ∧ s.Alike t :=
  ⟨_, bind_of_ok hwork, rfl, rfl, rfl⟩

theorem servedAs_createTask (hcalm : db.Undisturbed) (h : db.ledger.Numbered tasks) {draft : TaskDraft}
    (hasks : r.asks = some (.createTask draft)) : ServedAs r db ((createTask draft).run fresh now db) := by
  obtain ⟨text, hgiven, hdraft⟩ := Request.description_of_createTask hasks
  by_cases hfits : Integer.fits64 (Ledger.nextId tasks) = true
  · obtain ⟨t, hcreate, hlike⟩ := @Tasks.create_of_fits ⟨db, db.ledger⟩ _ hcalm h.stored hfits
      draft.description
    obtain ⟨u, hwork, hlike'⟩ := @noted _ db _ _ (fun t => taskRecord "Task created" t.id) _ hcreate
    refine servedAs_of_work hcalm hwork (hlike.trans hlike') (h.concat hfits draft.description) ?_
    rw [hdraft]
    refine .created hasks hgiven ?_ ?_ rfl
    · rw [h.catalog_eq]
      exact Catalog.ofTasks_eq_none_iff.mpr (Ledger.nextId_fresh tasks)
    · rw [(h.concat hfits _).catalog_eq, h.catalog_eq]
      exact Catalog.ofTasks_concat (Ledger.nextId_fresh tasks)
  · obtain ⟨t, hcreate, hlike⟩ := @Tasks.create_of_wide ⟨db, db.ledger⟩ _ hcalm h.stored hfits
      draft.description
    have hfull := (Ledger.fits_nextId h.fits).resolve_left hfits
    refine servedAs_of_work hcalm (bind_of_error hcreate) hlike h (.full hasks fun id hpos hle => ?_)
    obtain ⟨t, ht, hid⟩ := hfull id hpos hle
    rw [h.catalog_eq, Ne, Catalog.ofTasks_eq_none_iff]
    exact fun hnone => hnone t ht hid

theorem fits_of_nonneg {n : Int} (hnonneg : 0 ≤ n) (hle : n ≤ Integer.greatest64) :
    Integer.fits64 n = true := by
  have hleast : Integer.least64 ≤ n := Int.le_trans (by decide) hnonneg
  simp [Integer.fits64, hleast, hle]

/-- Whatever is asked of a task that is not there, the answer is the same. -/
theorem serves_absent {c : Call} (hasks : r.asks = some c) (habout : c.task? = some id)
    (h : l.Numbered tasks) (hnone : tasks.find? (·.id = id) = none) :
    Serves l r 404 (.json (Response.noTaskBody id)) l := by
  apply Serves.absent hasks habout
  rw [h.catalog_eq]
  exact Catalog.find_eq_none_iff.mp hnone

theorem servedAs_getTask (hcalm : db.Undisturbed) (h : db.ledger.Numbered tasks)
    (hid : Integer.fits64 id = true) (hasks : r.asks = some (.getTask id)) :
    ServedAs r db ((getTask id).run fresh now db) := by
  cases hfound : tasks.find? (·.id = id) with
  | none =>
    obtain ⟨t, hget, hlike⟩ := @Tasks.get_of_absent ⟨db, db.ledger⟩ _ _ hcalm h.stored hid hfound
    exact servedAs_of_work hcalm hget hlike h (serves_absent hasks rfl h hfound)
  | some task =>
    obtain ⟨t, hget, hlike⟩ := @Tasks.get_of_found ⟨db, db.ledger⟩ _ _ _ hcalm h.stored hid hfound
    obtain ⟨rfl, hentry⟩ := Catalog.ofTasks_of_find hfound
    rw [← h.catalog_eq] at hentry
    exact servedAs_of_work hcalm hget hlike h (.shown hasks hentry)

theorem servedAs_listTasks (hcalm : db.Undisturbed) (h : db.ledger.Numbered tasks) {limit offset : Nat}
    (hoffset : (offset : Int) ≤ Integer.greatest64) (hasks : r.asks = some (.listTasks limit offset)) :
    ServedAs r db ((listTasks limit offset).run fresh now db) := by
  have hlimit := Request.limit_of_asks hasks
  have hsmall : (limit : Int) ≤ Integer.greatest64 := by
    unfold Integer.greatest64
    omega
  obtain ⟨t, hlist, hlike⟩ := @Tasks.list_of_fits ⟨db, db.ledger⟩ _ hcalm h.stored _ _
    (fits_of_nonneg (Int.natCast_nonneg limit) hsmall) (fits_of_nonneg (Int.natCast_nonneg offset) hoffset)
  refine servedAs_of_work hcalm hlist hlike h (.listed hasks ?_)
  rw [h.catalog_eq]
  exact Catalog.lists_mergeSort h.distinct

theorem servedAs_patchTask (hcalm : db.Undisturbed) (h : db.ledger.Numbered tasks) {patch : TaskPatch}
    (hid : Integer.fits64 id = true) (hasks : r.asks = some (.patchTask id patch)) :
    ServedAs r db ((patchTask id patch).run fresh now db) := by
  cases hfound : tasks.find? (·.id = id) with
  | none =>
    obtain ⟨t, hdescribe, hlike⟩ := @Tasks.describe_of_absent ⟨db, db.ledger⟩ _ _ hcalm h.stored hid hfound
      patch.description
    exact servedAs_of_work hcalm hdescribe hlike h (serves_absent hasks rfl h hfound)
  | some task =>
    obtain ⟨rfl, hentry⟩ := Catalog.ofTasks_of_find hfound
    rw [← h.catalog_eq] at hentry
    obtain ⟨hkept, hgiven⟩ | ⟨text, hgiven, hnew⟩ := Request.description_of_patchTask hasks
    · obtain ⟨t, hdescribe, hlike⟩ := @Tasks.describe_unchanged ⟨db, db.ledger⟩ _ _ _ hcalm h.stored hid
        hfound patch.description (.inl hkept)
      exact servedAs_of_work hcalm hdescribe hlike h (.kept hasks hgiven hentry)
    · obtain ⟨t, hdescribe, hlike⟩ := @Tasks.describe_some ⟨db, db.ledger⟩ _ _ _ hcalm h hid hfound
        (Blank.strip text)
      rw [← hnew] at hdescribe
      have hafter := h.describing task.id (Blank.strip text)
      refine servedAs_of_work hcalm hdescribe hlike hafter (.replaced hasks hgiven hentry ?_ rfl)
      rw [hafter.catalog_eq, h.catalog_eq]
      exact Catalog.ofTasks_describing hfound _

theorem servedAs_deleteTask (hcalm : db.Undisturbed) (h : db.ledger.Numbered tasks)
    (hid : Integer.fits64 id = true) (hasks : r.asks = some (.deleteTask id)) :
    ServedAs r db ((deleteTask id).run fresh now db) := by
  cases hfound : tasks.find? (·.id = id) with
  | none =>
    obtain ⟨t, hdelete, hlike⟩ := @Tasks.delete_of_absent ⟨db, db.ledger⟩ _ _ hcalm h.stored hid hfound
    exact servedAs_of_work hcalm (bind_of_error hdelete) hlike h (serves_absent hasks rfl h hfound)
  | some task =>
    obtain ⟨t, hdelete, hlike⟩ := @Tasks.delete_of_found ⟨db, db.ledger⟩ _ _ _ hcalm h.stored hid hfound
    obtain ⟨u, hwork, hlike'⟩ := @noted _ db _ _ (fun _ => taskRecord "Task deleted" id) _ hdelete
    obtain ⟨rfl, hentry⟩ := Catalog.ofTasks_of_find hfound
    rw [← h.catalog_eq] at hentry
    have hafter := h.filter (fun t => some (Ident.int t.id) ≠ some (.int task.id))
      (db.ledger.rowsAfter fun other => some other = some (.int task.id))
    refine servedAs_of_work hcalm hwork (hlike.trans hlike') hafter (.removed hasks hentry ?_ rfl)
    rw [hafter.catalog_eq, h.catalog_eq]
    exact Catalog.ofTasks_filter tasks task.id

theorem servedAs_of_onTasks {c : Call} (hcalm : db.Undisturbed) (h : db.ledger.Numbered tasks)
    (hasks : r.asks = some c) (hon : c.OnTasks) : ServedAs r db (c.run fresh now db) := by
  cases c with
  | createTask draft => exact servedAs_createTask hcalm h hasks
  | listTasks limit offset => exact servedAs_listTasks hcalm h hon hasks
  | getTask id => exact servedAs_getTask hcalm h (fits_of_nonneg hon.1 hon.2) hasks
  | patchTask id patch => exact servedAs_patchTask hcalm h (fits_of_nonneg hon.1 hon.2) hasks
  | deleteTask id => exact servedAs_deleteTask hcalm h (fits_of_nonneg hon.1 hon.2) hasks
  | health | ready | start | stop | report => exact hon.elim

end Call

namespace Service

variable {s : Service} {v : Visit}

/-- The requests of some visits with their responses. -/
def transcript : Service → List Visit → List (Request × Response)
  | _, [] => []
  | s, v :: rest => (v.request, (s.visit v).1) :: transcript (s.visit v).2 rest

/-- A visit that asks for a call on tasks. -/
def OnTasks (v : Visit) : Prop := ∃ c, v.request.asks = some c ∧ c.OnTasks

/-- An open service on a database that nothing disturbs, with a table of tasks. -/
structure Calm (s : Service) : Prop where
  opened : s.opened = true
  calm : s.database.Undisturbed
  numbered : ∃ tasks, s.database.ledger.Numbered tasks

theorem Calm.visit (h : s.Calm) (hv : OnTasks v) : (s.visit v).2.Calm ∧
    Serves s.database.ledger v.request (s.visit v).1.status (s.visit v).1.content
      (s.visit v).2.database.ledger := by
  obtain ⟨c, hasks, hon⟩ := hv
  obtain ⟨tasks, hnumbered⟩ := h.numbered
  have hopen : (s.atTime v.now).opened = true := h.opened
  obtain ⟨hstatus, hcontent, hleaves⟩ := @answer_of_asks v.fresh _ _ _ hasks hopen
  have hserved := @Call.servedAs_of_onTasks v.fresh v.now _ s.database _ _ h.calm hnumbered hasks hon
  have hledger : (s.visit v).2.database.ledger = (c.run v.fresh v.now s.database).2.ledger :=
    hleaves.database.ledger
  refine ⟨⟨hleaves.opened.trans hopen, fun n verb => ?_, ?_⟩, ?_⟩
  · exact (congrFun (congrFun hleaves.database.disruption n) verb).trans (hserved.calm n verb)
  · rw [hledger]
    exact hserved.numbered
  · rw [hledger]
    have hserves := hserved.serves
    exact hstatus.symm ▸ hcontent.symm ▸ hserves

theorem Calm.serves_all (h : s.Calm) {visits : List Visit} (hon : ∀ v ∈ visits, OnTasks v) :
    (s.after visits).Calm ∧
      ServesAll s.database.ledger (s.transcript visits) (s.after visits).database.ledger := by
  induction visits generalizing s with
  | nil => exact ⟨h, .nil _⟩
  | cons v rest ih =>
    obtain ⟨hcalm, hfirst⟩ := h.visit (hon v List.mem_cons_self)
    obtain ⟨hafter, hothers⟩ := ih hcalm fun w hw => hon w (List.mem_cons_of_mem v hw)
    exact ⟨hafter, .cons hfirst hothers⟩

/-- Visits that ask for one page after another, from an offset on. -/
def Pages (limit : Nat) : Nat → List Visit → Prop
  | _, [] => True
  | offset, v :: rest => v.request.asks = some (.listTasks limit offset) ∧
      (offset : Int) ≤ Integer.greatest64 ∧ Pages limit (offset + limit) rest

/-- A list shows a part of the entries, and changes nothing. -/
theorem serves_listTasks {l after : Ledger} {r : Request} {status : Int} {content : Content}
    {limit offset : Nat} {ts : List Task} (hasks : r.asks = some (.listTasks limit offset))
    (hlists : l.catalog.Lists ts) (h : Serves l r status content after) : after = l ∧ status = 200 ∧
      content = .json (.arr (((ts.drop offset).take limit).map Response.taskBody)) := by
  cases h with
  | listed hlisted hlists' =>
    cases hasks.symm.trans hlisted
    rw [hlists.unique hlists']
    exact ⟨rfl, rfl, rfl⟩
  | absent habsent habout =>
    cases hasks.symm.trans habsent
    cases habout
  | created h | full h | shown h | replaced h | kept h | removed h => cases hasks.symm.trans h

theorem Calm.pages (h : s.Calm) {ts : List Task} (hlists : s.database.ledger.catalog.Lists ts)
    {limit offset : Nat} {visits : List Visit} (hpages : Pages limit offset visits) :
    ∃ shown : List (List Task), (s.transcript visits).map (fun e => (e.2.status, e.2.content)) =
        shown.map (fun page => (200, .json (.arr (page.map Response.taskBody)))) ∧
      shown.flatten = (ts.drop offset).take (visits.length * limit) := by
  -- Each page leaves the map as it is, so `ts` stays the list while the offset moves on.
  induction visits generalizing s offset with
  | nil => exact ⟨[], rfl, by simp⟩
  | cons v rest ih =>
    obtain ⟨hasks, hoffset, hrest⟩ := hpages
    obtain ⟨hcalm, hserves⟩ := h.visit ⟨_, hasks, hoffset⟩
    obtain ⟨hsame, hstatus, hcontent⟩ := serves_listTasks hasks hlists hserves
    rw [← hsame] at hlists
    obtain ⟨shown, hresponses, hflatten⟩ := ih hcalm hlists hrest
    refine ⟨(ts.drop offset).take limit :: shown, ?_, ?_⟩
    · simp only [transcript, List.map_cons, hstatus, hcontent, hresponses]
    · rw [List.flatten_cons, hflatten, ← List.drop_drop, ← List.take_add, List.length_cons, Nat.add_mul,
        Nat.one_mul, Nat.add_comm]

/-- After every sequence of requests about tasks the tables are those of a finite map that the requests
    were carried out on, and the pages of a list show all of it. -/
theorem tasks_refine_catalog (s : Service) (hcalm : s.Calm) (visits : List Visit)
    (hon : ∀ v ∈ visits, OnTasks v) :
    ServesAll s.database.ledger (s.transcript visits) (s.after visits).database.ledger ∧
    ∃ ts, (s.after visits).database.ledger.catalog.Lists ts ∧
      ∀ limit pages, Pages limit 0 pages → ∃ shown : List (List Task),
        ((s.after visits).transcript pages).map (fun e => (e.2.status, e.2.content)) =
          shown.map (fun page => (200, .json (.arr (page.map Response.taskBody)))) ∧
        shown.flatten = ts.take (pages.length * limit) ∧
        (ts.length ≤ pages.length * limit → shown.flatten = ts) := by
  obtain ⟨hafter, hserved⟩ := hcalm.serves_all hon
  obtain ⟨tasks, hnumbered⟩ := hafter.numbered
  have hlists : (s.after visits).database.ledger.catalog.Lists _ :=
    hnumbered.catalog_eq ▸ Catalog.lists_mergeSort hnumbered.distinct
  refine ⟨hserved, _, hlists, fun limit pages hpages => ?_⟩
  obtain ⟨shown, hresponses, hflatten⟩ := hafter.pages hlists hpages
  rw [List.drop_zero] at hflatten
  exact ⟨shown, hresponses, hflatten, fun hall => hflatten.trans (List.take_of_length_le hall)⟩

/-- A request without a body, some minutes into the first day of 2024. -/
def sent (minutes : Fin 1440) (method target : String) : Visit :=
  { posted minutes "" "" with request := { method, target := .ofText target } }

/-- A creation takes the number after the greatest, a null description changes nothing, a deleted task is
    gone, and two pages of two show the three tasks that are left. -/
theorem new_task_listed :
    let s : Service :=
      { clock := ⟨0, some .utc, by decide⟩
        database := { ledger := { tasks := some [⟨7, "seventh"⟩, ⟨3, "third"⟩, ⟨5, "fifth"⟩] } } }
    let change : Visit :=
      { posted 1 "/api/v1/tasks/3" "\x7b\"description\": null\x7d" with
        request := { (posted 1 "/api/v1/tasks/3" "\x7b\"description\": null\x7d").request with
          method := "PATCH" } }
    let visits := [posted 0 "/api/v1/tasks" "\x7b\"description\": \" eighth \"\x7d", change,
      sent 2 "DELETE" "/api/v1/tasks/5", sent 3 "GET" "/api/v1/tasks/5"]
    let pages := [sent 4 "GET" "/api/v1/tasks?limit=2", sent 5 "GET" "/api/v1/tasks?limit=2&offset=2"]
    (s.Calm ∧ (∀ v ∈ visits, OnTasks v) ∧ Pages 2 0 pages) ∧
      ServesAll s.database.ledger (s.transcript visits) (s.after visits).database.ledger ∧
      (s.after visits).database.ledger.catalog 8 = some "eighth" ∧
      ∃ shown : List (List Task), shown.flatten = [⟨3, "third"⟩, ⟨7, "seventh"⟩, ⟨8, "eighth"⟩] ∧
        ((s.after visits).transcript pages).map (fun e => (e.2.status, e.2.content)) =
          shown.map fun page => (200, .json (.arr (page.map Response.taskBody))) := by
  intro s change visits pages
  have hcalm : s.Calm :=
    ⟨rfl, fun _ _ => rfl, [⟨7, "seventh"⟩, ⟨3, "third"⟩, ⟨5, "fifth"⟩], rfl, by decide, by decide⟩
  have hcalls : visits.map (·.request.asks) = [some (.createTask ⟨"eighth"⟩),
      some (.patchTask 3 ⟨none, true⟩), some (.deleteTask 5), some (.getTask 5)] := by decide +kernel
  have hon : ∀ v ∈ visits, OnTasks v := by
    intro v hv
    have hasked := List.mem_map_of_mem (f := (·.request.asks)) hv
    rw [hcalls] at hasked
    simp only [List.mem_cons, List.not_mem_nil, or_false] at hasked
    obtain h | h | h | h := hasked
    · exact ⟨_, h, trivial⟩
    all_goals exact ⟨_, h, And.intro (by decide) (by decide)⟩
  have hpages : Pages 2 0 pages := ⟨by decide +kernel, by decide, by decide +kernel, by decide, trivial⟩
  have htasks : (s.after visits).database.ledger.tasks =
      some [⟨7, "seventh"⟩, ⟨3, "third"⟩, ⟨8, "eighth"⟩] := by decide +kernel
  obtain ⟨hserved, ts, hlists, hlisted⟩ := tasks_refine_catalog s hcalm visits hon
  have hcatalog : (s.after visits).database.ledger.catalog =
      Catalog.ofTasks [⟨7, "seventh"⟩, ⟨3, "third"⟩, ⟨8, "eighth"⟩] := by
    rw [Ledger.catalog, htasks]
    rfl
  have hsorted : ts = [⟨3, "third"⟩, ⟨7, "seventh"⟩, ⟨8, "eighth"⟩] := by
    have hperm : [⟨3, "third"⟩, ⟨7, "seventh"⟩, ⟨8, "eighth"⟩].Perm
        [(⟨7, "seventh"⟩ : Task), ⟨3, "third"⟩, ⟨8, "eighth"⟩] := by decide
    rw [hcatalog] at hlists
    exact hlists.unique ⟨by decide, fun t => hperm.mem_iff.trans (Catalog.mem_iff (by decide))⟩
  obtain ⟨shown, hresponses, _, hall⟩ := hlisted 2 pages hpages
  refine ⟨⟨hcalm, hon, hpages⟩, hserved, ?_, shown, ?_, hresponses⟩
  · rw [hcatalog]
    rfl
  · rw [hall (by rw [hsorted]; decide), hsorted]

end Service
end Worklog.Http
