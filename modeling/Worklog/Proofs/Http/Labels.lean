import Mathlib.Data.List.Induction
import Worklog.Proofs.Http.Asked
import Worklog.Proofs.Schedule.History

namespace Worklog

open Run

namespace Ledger

variable {l l' : Ledger} {i : Int}

/-- A task with the id is stored. -/
def HasTask (i : Int) (l : Ledger) : Prop := ∃ tasks, l.tasks = some tasks ∧ ∃ t ∈ tasks, t.id = i

/-- The description that is stored under an id. -/
def description? (i : Int) (l : Ledger) : Option String :=
  ((l.tasks.getD []).find? (·.id = i)).map (·.description)

theorem description?_eq_none_iff : l.description? i = none ↔ ¬ l.HasTask i := by
  unfold description? HasTask
  cases htasks : l.tasks <;> simp

theorem hasTask_congr (h : l'.tasks = l.tasks) : l'.HasTask i ↔ l.HasTask i := by
  simp only [HasTask, h]

/-- A change that stores no task under another id. -/
def NoNewTask (change : Ledger → Except Rejection Ledger) : Prop :=
  ∀ l l', change l = .ok l' → ∀ i, l'.HasTask i → l.HasTask i

theorem noNewTask_describeTask (id : Int) (description : String) :
    NoNewTask (describeTask id description) := by
  rintro l l' h _ ⟨_, htasks, t, ht, rfl⟩
  simp only [describeTask, except_bind_eq_ok_iff] at h
  obtain ⟨tasks, htable, _, _, hafter⟩ := h
  cases hafter
  cases htasks
  obtain ⟨t', ht', rfl⟩ := List.mem_map.mp ht
  refine ⟨tasks, taskTable_eq_ok_iff.mp htable, t', ht', ?_⟩
  split <;> rfl

theorem noNewTask_deleteTask (prepared : Bool) (id : Option Ident) :
    NoNewTask (deleteTask prepared id) := by
  rintro l l' h _ ⟨_, htasks, t, ht, rfl⟩
  simp only [deleteTask, except_bind_eq_ok_iff] at h
  obtain ⟨⟨tasks, _⟩, hprepare, hafter⟩ := h
  cases hafter
  cases htasks
  exact ⟨tasks, taskTable_eq_ok_iff.mp (prepare_eq_ok_iff.mp hprepare).1, t, (List.mem_filter.mp ht).1, rfl⟩

end Ledger

namespace Work

variable {α β : Type} {verb : Verb} {q : Query}

/-- Work that stores no new task, neither in the working copy nor for good. -/
def AddsNoTask (w : Work α) : Prop := ∀ s i,
  ((w s).2.working.HasTask i → s.working.HasTask i) ∧
    ((w s).2.lasting.HasTask i → s.working.HasTask i ∨ s.lasting.HasTask i)

theorem AddsNoTask.bind {w : Work α} {f : α → Work β} (hw : AddsNoTask w) (hf : ∀ a, AddsNoTask (f a)) :
    AddsNoTask (w >>= f) := by
  intro s i
  rcases hfirst : w s with ⟨_ | a, t⟩
  · rw [bind_of_error hfirst]
    have hs := hw s i
    rwa [hfirst] at hs
  · rw [bind_of_ok hfirst]
    have hs := hw s i
    rw [hfirst] at hs
    obtain ⟨hworking, hlasting⟩ := hf a t i
    refine ⟨fun h => hs.1 (hworking h), fun h => ?_⟩
    obtain h | h := hlasting h
    · exact .inl (hs.1 h)
    · exact hs.2 h

theorem addsNoTask_of_still {w : Work α} (hworking : ∀ s, (w s).2.working = s.working)
    (hlasting : Keeps Scope.lasting w) : AddsNoTask w := by
  intro s i
  rw [hworking s, hlasting s]
  exact ⟨id, .inr⟩

theorem addsNoTask_pure (a : α) : AddsNoTask (pure a) :=
  addsNoTask_of_still (fun _ => rfl) (keeps_pure a)

theorem addsNoTask_note (r : Log.Record) : AddsNoTask (note r) :=
  addsNoTask_of_still (fun _ => rfl) (keeps_note r)

theorem addsNoTask_read (statement : Ledger → Except Rejection α) : AddsNoTask (read verb statement) :=
  addsNoTask_of_still (fun _ => (read_cases rfl).1.working) (keeps_read statement)

theorem addsNoTask_ask (statement : Bool → Ledger → Except Rejection α) :
    AddsNoTask (ask verb q statement) :=
  addsNoTask_of_still (fun _ => (ask_cases rfl).1.working) (keeps_ask statement)

theorem addsNoTask_write {change : Ledger → Except Rejection Ledger} (h : Ledger.NoNewTask change) :
    AddsNoTask (write verb fun l => (change l).map ((), ·)) := by
  intro s i
  rcases hwrite : write verb (fun l => (change l).map ((), ·)) s with ⟨r, t⟩
  have hlasting : t.lasting = s.lasting := (keeps_write _).after hwrite
  refine ⟨fun hi => ?_, fun hi => .inr (hlasting ▸ hi)⟩
  obtain ⟨hlike, _⟩ | ⟨_, l, hmap, _, hlike⟩ := write_cases hwrite
  · exact hlike.working ▸ hi
  · have hworking : t.working = l := hlike.working
    cases hchange : change s.working with
    | error x =>
      rw [hchange] at hmap
      cases hmap
    | ok after =>
      rw [hchange] at hmap
      cases hmap
      exact h s.working l hchange i (hworking ▸ hi)

theorem addsNoTask_commit : AddsNoTask commit := by
  intro s i
  rcases hcommit : commit s with ⟨r, t⟩
  obtain ⟨hlike, _⟩ | ⟨_, hlike⟩ := commit_cases hcommit
  · have hlasting : t.lasting = s.lasting := hlike.database.ledger
    exact ⟨fun hi => hlike.working ▸ hi, fun hi => .inr (hlasting ▸ hi)⟩
  · have hlasting : t.lasting = s.working := hlike.database.ledger
    exact ⟨fun hi => hlike.working ▸ hi, fun hi => .inl (hlasting ▸ hi)⟩

end Work

namespace Tasks

open Work

theorem addsNoTask_get (id : Int) : AddsNoTask (get id) := by
  refine (addsNoTask_ask _).bind fun found => ?_
  cases found with
  | some t => exact addsNoTask_pure t
  | none => exact addsNoTask_of_still (fun _ => rfl) (keeps_fail _)

theorem addsNoTask_refresh (t : Task) : AddsNoTask (refresh t) :=
  (addsNoTask_read _).bind fun _ => addsNoTask_pure _

theorem addsNoTask_describe (id : Int) (description : Option String) :
    AddsNoTask (describe id description) := by
  rw [describe_eq]
  refine AddsNoTask.bind ?_ addsNoTask_refresh
  refine (addsNoTask_get id).bind fun t => AddsNoTask.bind ?_ fun _ =>
    addsNoTask_commit.bind fun _ => addsNoTask_pure t
  unfold amend
  split
  · split
    · exact addsNoTask_write (Ledger.noNewTask_describeTask id _)
    · exact addsNoTask_pure ()
  · exact addsNoTask_pure ()

theorem addsNoTask_delete (id : Int) : AddsNoTask (delete id) :=
  (addsNoTask_get id).bind fun t => (addsNoTask_write (Ledger.noNewTask_deleteTask _ _)).bind fun _ =>
    addsNoTask_commit.bind fun _ => addsNoTask_pure t

/-- A creation stores a task under the next id, and no other. -/
theorem hasTask_of_create {description : String} {rest : Task → Work α}
    (hrest : ∀ t, AddsNoTask (rest t)) {s : Scope} {i : Int}
    (h : ((create description >>= rest) s).2.lasting.HasTask i) :
    s.working.HasTask i ∨ s.lasting.HasTask i ∨
      ∃ tasks, s.working.tasks = some tasks ∧ Ledger.nextId tasks = i := by
  have hsplit : create description >>= rest = write .flush (Ledger.insertTask description) >>= fun t =>
      (do
        commit
        refresh t) >>= rest := by
    simp only [create, bind_assoc]
  rw [hsplit] at h
  rcases hwrite : write .flush (Ledger.insertTask description) s with ⟨_ | t, u⟩
  · rw [bind_of_error hwrite] at h
    have hlasting : u.lasting = s.lasting := (keeps_write _).after hwrite
    exact .inr (.inl (hlasting ▸ h))
  · rw [bind_of_ok hwrite] at h
    have hlasting : u.lasting = s.lasting := (keeps_write _).after hwrite
    have hafter : AddsNoTask ((do
        commit
        refresh t) >>= rest) :=
      (addsNoTask_commit.bind fun _ => addsNoTask_refresh t).bind hrest
    obtain hworking | hkept := (hafter u i).2 h
    · obtain ⟨_, _, _, hr⟩ | ⟨_, l, hinsert, hr, hlike⟩ := write_cases hwrite
      · cases hr
      · cases hr
        obtain rfl : u.working = l := hlike.working
        obtain ⟨tasks, htable, hstore⟩ := except_bind_eq_ok_iff.mp hinsert
        have htasks := Ledger.taskTable_eq_ok_iff.mp htable
        dsimp only at hstore
        split at hstore
        · obtain ⟨rfl, hl⟩ := Prod.mk.inj (Except.ok.inj hstore)
          rw [← hl] at hworking
          obtain ⟨_, ⟨⟩, t', ht', rfl⟩ := hworking
          obtain ht' | ht' := List.mem_append.mp ht'
          · exact .inl ⟨tasks, htasks, t', ht', rfl⟩
          · obtain rfl := List.mem_singleton.mp ht'
            exact .inr (.inr ⟨tasks, htasks, rfl⟩)
        · cases hstore
    · exact .inr (.inl (hlasting ▸ hkept))

end Tasks

namespace Http

deriving instance DecidableEq for Call

/-- A scope whose work stores no new task. -/
theorem hasTask_of_scope {α : Type} {context : Option Context} {work : Work α}
    (h : Work.AddsNoTask work) {db : Database} {i : Int}
    (hi : (Database.scope context work db).2.ledger.HasTask i) : db.ledger.HasTask i := by
  rw [(Database.scope_leaves context work db).1] at hi
  exact ((h ⟨db, db.ledger⟩ i).2 hi).elim id id

theorem hasTask_of_map {α β : Type} {x : Use α} {g : α → β} {db : Database} {i : Int}
    (h : (((do return g (← x) : Use β) db).2).ledger.HasTask i) : (x db).2.ledger.HasTask i := by
  rcases hx : x db with ⟨_ | a, db'⟩
  · rwa [bind_of_error hx] at h
  · rwa [bind_of_ok hx] at h

theorem tasks_of_stop (now : Moment) (key : KeyRef) (db : Database) :
    (Session.stop Database.intervals now key db).2.ledger.tasks = db.ledger.tasks := by
  rcases hfind : Session.find Database.intervals key db with ⟨_ | found, u⟩
  · have hledger : u.ledger = db.ledger := (Session.keeps_find key).after hfind
    rw [Session.stop, bind_of_error hfind, hledger]
  · have hledger : u.ledger = db.ledger := (Session.keeps_find key).after hfind
    rw [Session.stop, bind_of_ok hfind, ← hledger]
    exact (Session.finish_follows key found now u).touched.frame.1

/-- The only call that stores a task under another id is a creation, and it does so under the next one. -/
theorem Call.hasTask_of_run {fresh : Uuid} {now : Moment} {c : Call} {db : Database} {i : Int}
    (h : (c.run fresh now db).2.ledger.HasTask i) : db.ledger.HasTask i ∨
      (∃ draft, c = .createTask draft) ∧
        ∃ tasks, db.ledger.tasks = some tasks ∧ Ledger.nextId tasks = i := by
  cases c with
  | health => exact .inl h
  | ready =>
    have hledger : ((ready).run fresh now db).2.ledger = db.ledger :=
      (keeps_probe.bind fun _ => keeps_pure _) db
    exact .inl (hledger ▸ h)
  | createTask draft =>
    have hscope := hasTask_of_map h
    rw [(Database.scope_leaves _ _ db).1] at hscope
    obtain hold | hold | hnext := Tasks.hasTask_of_create
      (fun t => (Work.addsNoTask_note _).bind fun _ => Work.addsNoTask_pure t) hscope
    · exact .inl hold
    · exact .inl hold
    · exact .inr ⟨⟨draft, rfl⟩, hnext⟩
  | listTasks limit offset => exact .inl (hasTask_of_scope (Work.addsNoTask_ask _) (hasTask_of_map h))
  | getTask id => exact .inl (hasTask_of_scope (Tasks.addsNoTask_get id) (hasTask_of_map h))
  | patchTask id patch =>
    exact .inl (hasTask_of_scope (Tasks.addsNoTask_describe id _) (hasTask_of_map h))
  | deleteTask id =>
    refine .inl (hasTask_of_scope ?_ (hasTask_of_map h))
    exact (Tasks.addsNoTask_delete id).bind fun t => (Work.addsNoTask_note _).bind fun _ =>
      Work.addsNoTask_pure t
  | start key =>
    have htasks := (Session.start_follows fresh now key.ref db).touched.frame.1
    exact .inl ((Ledger.hasTask_congr htasks).mp (hasTask_of_map h))
  | stop key =>
    exact .inl ((Ledger.hasTask_congr (tasks_of_stop now key.ref db)).mp (hasTask_of_map h))
  | report user bounds =>
    have hkeeps : Keeps Database.ledger ((report user bounds).run fresh now) :=
      (Report.keeps_run now _ _ _).bind fun rows =>
        (Database.keeps_scope none (keeps_reportRows rows)).bind fun _ => keeps_pure _
    exact .inl (hkeeps db ▸ h)

/-- Among the tasks with certain ids one of these ids has the description that it has among all. -/
theorem descriptionIn_filter {stored : List Task} {ids : List Ident} {i : Int} (h : Ident.int i ∈ ids) :
    descriptionIn (stored.filter fun t => ids.contains (.int t.id)) (.int i) =
      (stored.find? (·.id = i)).map (·.description) := by
  simp only [descriptionIn, List.find?_filter, Ident.int.injEq]
  congr 2
  funext t
  by_cases ht : t.id = i
  · simp [ht, h]
  · simp [ht]

/-- The descriptions that a report finds for its rows are those that are stored. -/
theorem rows_of_report {fresh : Uuid} {now : Moment} {user : Int} {bounds : ReportBounds} {db : Database}
    {response : Response} (h : ((Call.report user bounds).run fresh now db).1 = .ok response) :
    ∃ (rows : List TaskTime) (label : Ident → Option String),
      (Report.run Database.intervals now (some (.int user)) bounds.start bounds.stop db).1 = .ok rows ∧
      response = .ofJson 200 (.arr (rows.map fun row => Body.reportRow row (label row.task))) ∧
      ∀ row ∈ rows, ∀ i, row.task = .int i → label (.int i) = db.ledger.description? i := by
  rcases hcall : (Call.report user bounds).run fresh now db with ⟨r, db'⟩
  rw [hcall] at h
  obtain rfl : r = .ok response := h
  obtain ⟨rows, u, hrun, hrest⟩ | ⟨_, _, hr⟩ := bind_eq_iff.mp hcall
  · have hledger : u.ledger = db.ledger := (Report.keeps_run _ _ _ _).after hrun
    rw [hrun]
    obtain ⟨body, v, hscope, hlast⟩ | ⟨_, _, hr⟩ := bind_eq_iff.mp hrest
    · cases hlast
      obtain ⟨r', s, hwork, _, hr⟩ := Database.scope_cases hscope
      cases r' with
      | error e => cases hr
      | ok shown =>
        cases hr
        obtain ⟨tasks, w, hread, hpure⟩ | ⟨_, _, hr⟩ := bind_eq_iff.mp hwork
        · cases hpure
          refine ⟨rows, descriptionIn tasks, rfl, rfl, fun row hrow i hi => ?_⟩
          have hsome : ((rows.map (·.task)).isEmpty) = false := by
            cases rows with
            | nil => cases hrow
            | cons => rfl
          rw [Tasks.descriptions, hsome] at hread
          obtain ⟨_, ⟨_, _, hr⟩ | ⟨_, hfound, hr⟩⟩ := Work.read_cases hread
          · cases hr
          · cases hr
            obtain ⟨stored, htable, hfilter⟩ := except_bind_eq_ok_iff.mp hfound
            cases hfilter
            have htasks : db.ledger.tasks = some stored :=
              (congrArg Ledger.tasks hledger).symm.trans (Ledger.taskTable_eq_ok_iff.mp htable)
            have hasked : Ident.int i ∈ rows.map (·.task) := hi ▸ List.mem_map_of_mem hrow
            rw [descriptionIn_filter hasked, Ledger.description?, htasks, Option.getD_some]
        · cases hr
    · cases hr
  · cases hr

namespace Service

/-- A request and the time at which it comes, with the id of an interval that it may begin. -/
structure Visit where
  fresh : Uuid
  now : Moment
  request : Request

/-- The service at another time. -/
def atTime (s : Service) (now : Moment) : Service := { s with clock := now }

/-- The response to a visit, and the service after it. -/
def visit (s : Service) (v : Visit) : Response × Service := (s.atTime v.now).answer v.fresh v.request

/-- The service after some visits. -/
def after (s : Service) (visits : List Visit) : Service :=
  visits.foldl (fun s v => (s.visit v).2) s

/-- A task with the id is stored. -/
def HasTask (s : Service) (i : Int) : Prop := s.database.ledger.HasTask i

variable {s : Service} {i : Int}

theorem after_concat (s : Service) (visits : List Visit) (v : Visit) :
    s.after (visits ++ [v]) = ((s.after visits).visit v).2 := by
  simp [after]

theorem visit_of_unasked {v : Visit} (h : v.request.asks = none) (s : Service) :
    (s.visit v).2.opened = s.opened ∧ (s.visit v).2.database.ledger = s.database.ledger :=
  have hleaves := answer_of_unasked h v.fresh (s.atTime v.now)
  ⟨hleaves.opened, hleaves.database.ledger⟩

theorem visit_of_asks {v : Visit} {c : Call} (h : v.request.asks = some c) (hopened : s.opened = true) :
    (s.visit v).1.content = (Response.ofEnd (c.run v.fresh v.now s.database).1).content ∧
      (s.visit v).2.opened = true ∧
      (s.visit v).2.database.ledger = (c.run v.fresh v.now s.database).2.ledger :=
  have hopen : (s.atTime v.now).opened = true := hopened
  have hanswer := answer_of_asks h hopen
  ⟨hanswer.2.1, hanswer.2.2.opened.trans hopen, hanswer.2.2.database.ledger⟩

theorem opened_visit (hopened : s.opened = true) (v : Visit) : (s.visit v).2.opened = true := by
  cases hasks : v.request.asks with
  | none => exact (visit_of_unasked hasks s).1.trans hopened
  | some c => exact (visit_of_asks hasks hopened).2.1

theorem opened_after (hopened : s.opened = true) (visits : List Visit) :
    (s.after visits).opened = true := by
  induction visits using List.reverseRecOn with
  | nil => exact hopened
  | append_singleton visits v ih =>
    rw [after_concat]
    exact opened_visit ih v

/-- A visit creates the task with an id, which is the next one. -/
structure Creates (s : Service) (i : Int) (v : Visit) : Prop where
  asked : ∃ draft, v.request.asks = some (.createTask draft)
  next : ∃ tasks, s.database.ledger.tasks = some tasks ∧ Ledger.nextId tasks = i
  stored : (s.visit v).2.HasTask i

/-- The only visit that stores a task under another id is a creation. -/
theorem hasTask_visit (hopened : s.opened = true) {v : Visit} (h : (s.visit v).2.HasTask i) :
    s.HasTask i ∨ s.Creates i v := by
  cases hasks : v.request.asks with
  | none =>
    rw [HasTask, (visit_of_unasked hasks s).2] at h
    exact .inl h
  | some c =>
    have hrun := h
    rw [HasTask, (visit_of_asks hasks hopened).2.2] at hrun
    obtain hold | ⟨⟨draft, rfl⟩, hnext⟩ := Call.hasTask_of_run hrun
    · exact .inl hold
    · exact .inr ⟨⟨draft, hasks⟩, hnext, h⟩

/-- After the first part of a history a visit creates the task with an id, which is stored from then on. -/
structure Retaken (s : Service) (i : Int) (before : List Visit) (v : Visit) (later : List Visit) : Prop where
  created : (s.after before).Creates i v
  kept : ∀ part, part <+: later → (s.after (before ++ v :: part)).HasTask i

/-- An id that no task has is taken at the end of a history if a creation took it and the task was not
    deleted again. -/
theorem hasTask_after_iff (hopened : s.opened = true) (hgone : ¬ s.HasTask i) (visits : List Visit) :
    (s.after visits).HasTask i ↔
      ∃ before v later, visits = before ++ v :: later ∧ s.Retaken i before v later := by
  constructor
  · intro h
    induction visits using List.reverseRecOn with
    | nil => exact absurd h hgone
    | append_singleton visits v ih =>
      have hlast := h
      rw [after_concat] at hlast
      obtain hold | hcreates := hasTask_visit (opened_after hopened visits) hlast
      · obtain ⟨before, w, later, rfl, hcreated, hkept⟩ := ih hold
        refine ⟨before, w, later ++ [v], by simp, hcreated, fun part hpart => ?_⟩
        obtain hpart | rfl := List.prefix_concat_iff.mp hpart |>.symm
        · exact hkept part hpart
        · simpa using h
      · refine ⟨visits, v, [], rfl, hcreates, fun part hpart => ?_⟩
        rw [List.prefix_nil.mp hpart]
        exact h
  · rintro ⟨before, v, later, rfl, _, hkept⟩
    exact hkept later List.prefix_rfl

/-- Time on a deleted task is shown without a description exactly until its id is taken again, and
    under the description that is stored then. -/
theorem deleted_label_null_iff (s : Service) (hopened : s.opened = true) (i : Int) (hgone : ¬ s.HasTask i)
    (visits : List Visit) (v : Visit) (user : Int) (bounds : ReportBounds)
    (hasks : v.request.asks = some (.report user bounds)) (shown : List Json)
    (hshown : ((s.after visits).visit v).1.content = .json (.arr shown)) :
    ∃ (rows : List TaskTime) (label : Ident → Option String),
      (Report.run Database.intervals v.now (some (.int user)) bounds.start bounds.stop
        (s.after visits).database).1 = .ok rows ∧
      shown = rows.map (fun row => Body.reportRow row (label row.task)) ∧
      ∀ row ∈ rows, row.task = .int i →
        label row.task = (s.after visits).database.ledger.description? i ∧
        (label row.task = none ↔
          ¬ ∃ before w later, visits = before ++ w :: later ∧ s.Retaken i before w later) := by
  have hopen := opened_after hopened visits
  have hend := (visit_of_asks hasks hopen).1.symm.trans hshown
  cases hrun : ((Call.report user bounds).run v.fresh v.now (s.after visits).database).1 with
  | error f =>
    rw [hrun] at hend
    cases f <;> cases hend
  | ok response =>
    obtain ⟨rows, label, hreport, rfl, hlabel⟩ := rows_of_report hrun
    rw [hrun] at hend
    cases hend
    refine ⟨rows, label, hreport, rfl, fun row hrow hi => ?_⟩
    have hfound := hlabel row hrow i hi
    rw [hi, hfound, Ledger.description?_eq_none_iff]
    exact ⟨rfl, not_congr (hasTask_after_iff hopened hgone visits)⟩

/-- A report with a single row shows it under the description that is stored. -/
theorem content_of_single {v : Visit} {user : Int} {bounds : ReportBounds} {row : TaskTime}
    (hopened : s.opened = true) (hasks : v.request.asks = some (.report user bounds))
    (hok : ((Call.report user bounds).run v.fresh v.now s.database).1.isOk = true)
    (hrun : (Report.run Database.intervals v.now (some (.int user)) bounds.start bounds.stop
      s.database).1.toOption = some [row]) (hrow : row.task = .int i) :
    (s.visit v).1.content = .json (.arr [Body.reportRow row (s.database.ledger.description? i)]) := by
  rw [(visit_of_asks hasks hopened).1]
  cases hcall : ((Call.report user bounds).run v.fresh v.now s.database).1 with
  | error f =>
    rw [hcall] at hok
    cases hok
  | ok response =>
    obtain ⟨rows, label, hrows, rfl, hlabel⟩ := rows_of_report hcall
    rw [toOption_eq_some_iff.mp hrun] at hrows
    cases hrows
    rw [List.map_singleton, hrow, hlabel row (List.mem_singleton.mpr rfl) i hrow]
    rfl

/-- A request with a JSON body, some minutes into the first day of 2024. -/
def posted (minutes : Fin 1440) (path body : String) : Visit where
  fresh := .ofNat 0xa1
  now := ⟨738885 * dayMicros + minutes * minuteMicros, some .utc, by
    have := minutes.isLt
    unfold calendarMicros dayMicros minuteMicros secondMicros
    omega⟩
  request :=
    { method := "POST", target := ⟨path.toList, []⟩, headers := [("content-type", "application/json")]
      body }

/-- The report of that day. -/
def dayReport : Visit :=
  posted 40 "/api/v1/users/42/report"
    "\x7b\"from\": \"2024-01-01T00:00:00Z\", \"to\": \"2024-01-02T00:00:00Z\"\x7d"

def day : ReportBounds where
  start := ⟨738885 * dayMicros, some .utc, by decide⟩
  stop := ⟨738886 * dayMicros, some .utc, by decide⟩

theorem dayReport_asks : dayReport.request.asks = some (.report 42 day) := by decide +kernel

/-- The task with the number 1 has been deleted, the one with the number 2 has not, and so a third task gets
    the number 3. -/
theorem deleted_label_stays_null :
    let worked : Row := ⟨.ofNat 0xa1, .int 42, .int 1, ⟨738885 * dayMicros, by decide⟩,
      some ⟨738885 * dayMicros + 30 * minuteMicros, by decide⟩⟩
    let s : Service :=
      { clock := ⟨0, some .utc, by decide⟩
        database := { ledger := { tasks := some [⟨2, "kept"⟩], rows := some [worked] } } }
    let visits := [posted 30 "/api/v1/tasks" "\x7b\"description\": \"new\"\x7d"]
    s.opened = true ∧ ¬ s.HasTask 1 ∧
      ((s.after visits).visit dayReport).1.content =
        .json (.arr [Body.reportRow ⟨.int 1, 30 * minuteMicros⟩ none]) ∧
      ¬ ∃ before w later, visits = before ++ w :: later ∧ s.Retaken 1 before w later := by
  intro worked s visits
  have hgone : ¬ s.HasTask 1 := Ledger.description?_eq_none_iff.mp (by decide)
  have hopened : (s.after visits).opened = true := opened_after rfl visits
  obtain ⟨hnone, hok, hrun⟩ : (s.after visits).database.ledger.description? 1 = none ∧
      ((Call.report 42 day).run dayReport.fresh dayReport.now (s.after visits).database).1.isOk = true ∧
      (Report.run Database.intervals dayReport.now (some (.int 42)) day.start day.stop
        (s.after visits).database).1.toOption = some [⟨.int 1, 30 * minuteMicros⟩] := by decide +kernel
  have hshown := content_of_single hopened dayReport_asks hok hrun rfl
  rw [hnone] at hshown
  obtain ⟨rows, label, hrows, _, hlabel⟩ :=
    deleted_label_null_iff s rfl 1 hgone visits dayReport 42 day dayReport_asks _ hshown
  rw [toOption_eq_some_iff.mp hrun] at hrows
  cases hrows
  obtain ⟨hstored, hnever⟩ := hlabel _ (List.mem_singleton.mpr rfl) rfl
  exact ⟨rfl, hgone, hshown, hnever.mp (hstored.trans hnone)⟩

/-- On a fresh database the only task is worked on and deleted. The next one gets its number and, in the
    report, its half hour. -/
theorem deleted_label_renamed :
    let s : Service := { clock := ⟨0, some .utc, by decide⟩ }
    let delete : Visit :=
      { posted 31 "" "" with request := { method := "DELETE", target := ⟨"/api/v1/tasks/1".toList, []⟩ } }
    let past := [posted 0 "/api/v1/tasks" "\x7b\"description\": \"old\"\x7d",
      posted 0 "/api/v1/users/42/tasks/1/start" "", posted 30 "/api/v1/users/42/tasks/1/stop" "", delete]
    let create := posted 32 "/api/v1/tasks" "\x7b\"description\": \"new\"\x7d"
    ¬ (s.after past).HasTask 1 ∧
      ((s.after (past ++ [create])).visit dayReport).1.content =
        .json (.arr [Body.reportRow ⟨.int 1, 30 * minuteMicros⟩ (some "new")]) := by
  intro s delete past create
  have hgone : ¬ (s.after past).HasTask 1 := Ledger.description?_eq_none_iff.mp (by decide +kernel)
  have hopened : (s.after (past ++ [create])).opened = true := opened_after rfl _
  obtain ⟨hnew, hok, hrun⟩ : (s.after (past ++ [create])).database.ledger.description? 1 = some "new" ∧
      ((Call.report 42 day).run dayReport.fresh dayReport.now
        (s.after (past ++ [create])).database).1.isOk = true ∧
      (Report.run Database.intervals dayReport.now (some (.int 42)) day.start day.stop
        (s.after (past ++ [create])).database).1.toOption = some [⟨.int 1, 30 * minuteMicros⟩] := by
    decide +kernel
  have hshown := content_of_single hopened dayReport_asks hok hrun rfl
  rw [hnew] at hshown
  exact ⟨hgone, hshown⟩

end Service
end Http
end Worklog
