import Worklog.Proofs.Database.Catalog

namespace Worklog

open Run

namespace Scope

/-- The scope once a ledger has been made lasting. -/
def saved (s : Scope) (l : Ledger) : Scope := ⟨{ s.database with ledger := l }, l⟩

variable {s t u : Scope}

theorem Alike.undisturbed (h : s.Alike t) (hcalm : s.database.Undisturbed) : t.database.Undisturbed := by
  intro n verb
  rw [h.database.disruption]
  exact hcalm n verb

theorem Alike.saved (h : s.Alike t) (l : Ledger) : (s.saved l).Alike (t.saved l) :=
  ⟨rfl, rfl, h.database.disruption⟩

end Scope

namespace Work

variable {α : Type} {verb : Verb} {q : Query} {s : Scope} {a : α} {l : Ledger} {x : Rejection}

theorem read_of_calm (hcalm : s.database.Undisturbed) {statement : Ledger → Except Rejection α}
    (ha : statement s.working = .ok a) : ∃ t, read verb statement s = (.ok a, t) ∧ s.Alike t :=
  ⟨s.counted, read_of_quiet (hcalm _ _) ha, rfl, rfl, rfl⟩

theorem ask_of_calm (hcalm : s.database.Undisturbed) {statement : Bool → Ledger → Except Rejection α}
    (ha : ∀ prepared, statement prepared s.working = .ok a) :
    ∃ t, ask verb q statement s = (.ok a, t) ∧ s.Alike t := by
  rcases hask : ask verb q statement s with ⟨r, t⟩
  obtain ⟨hlike, ⟨e, hrefused | ⟨prepared, x, hx, _⟩, _⟩ | ⟨prepared, a', ha', rfl⟩⟩ := ask_cases hask
  · exact absurd hrefused (hcalm.not_raises e)
  · cases (ha prepared).symm.trans hx
  · cases (ha prepared).symm.trans ha'
    exact ⟨t, rfl, hlike⟩

theorem write_of_calm (hcalm : s.database.Undisturbed)
    {statement : Ledger → Except Rejection (α × Ledger)} (ha : statement s.working = .ok (a, l)) :
    ∃ t, write verb statement s = (.ok a, t) ∧ ({ s with working := l } : Scope).Alike t := by
  rcases hwrite : write verb statement s with ⟨r, t⟩
  obtain ⟨_, e, hrefused | ⟨_, x, hx, _⟩, _⟩ | ⟨a', l', ha', rfl, hlike⟩ := write_cases hwrite
  · exact absurd hrefused (hcalm.not_raises e)
  · cases ha.symm.trans hx
  · cases ha.symm.trans ha'
    exact ⟨t, rfl, hlike⟩

theorem change_of_calm (hcalm : s.database.Undisturbed) {change : Ledger → Except Rejection Ledger}
    (h : change s.working = .ok l) : ∃ t, write verb (fun l => (change l).map ((), ·)) s = (.ok (), t) ∧
      ({ s with working := l } : Scope).Alike t :=
  write_of_calm hcalm (congrArg (Except.map ((), ·)) h)

theorem write_of_rejected (hcalm : s.database.Undisturbed)
    {statement : Ledger → Except Rejection (α × Ledger)} (hx : statement s.working = .error x) :
    ∃ t, write verb statement s = (.error x.raised, t) ∧ s.Alike t := by
  rcases hwrite : write verb statement s with ⟨r, t⟩
  obtain ⟨hlike, e, hrefused | ⟨_, x', hx', rfl⟩, rfl⟩ | ⟨a, l, ha, _⟩ := write_cases hwrite
  · exact absurd hrefused (hcalm.not_raises e)
  · cases hx.symm.trans hx'
    exact ⟨t, rfl, hlike⟩
  · cases hx.symm.trans ha

theorem commit_of_calm (hcalm : s.database.Undisturbed) :
    ∃ t, commit s = (.ok (), t) ∧ (s.saved s.working).Alike t := by
  rcases hcommit : commit s with ⟨r, t⟩
  obtain ⟨_, e, hraised, _⟩ | ⟨rfl, hlike⟩ := commit_cases hcommit
  · exact absurd hraised (hcalm.not_raises e)
  · exact ⟨t, rfl, hlike⟩

end Work

namespace Tasks

open Work

variable {s : Scope} {tasks : List Task} {task : Task} {id : Int} {d : String}

/-- A task is got if there is one with the id. -/
theorem get_of_fits (hcalm : s.database.Undisturbed) (htasks : s.working.tasks = some tasks)
    (hid : Integer.fits64 id = true) : ∃ t, s.Alike t ∧ get id s =
      ((tasks.find? (·.id = id)).elim (.error (.fault (.failure (Failure.noTask id)))) .ok, t) := by
  obtain ⟨t, hask, hlike⟩ := @ask_of_calm _ .load .findTask s (tasks.find? (·.id = id)) hcalm
    (fun prepared => Ledger.findTask prepared id) (fun prepared => Ledger.findTask_of_fits prepared htasks hid)
  refine ⟨t, hlike, ?_⟩
  rw [get, bind_of_ok hask]
  cases tasks.find? (·.id = id) <;> rfl

theorem get_of_found (hcalm : s.database.Undisturbed) (htasks : s.working.tasks = some tasks)
    (hid : Integer.fits64 id = true) (hfound : tasks.find? (·.id = id) = some task) :
    ∃ t, get id s = (.ok task, t) ∧ s.Alike t := by
  obtain ⟨t, hlike, hget⟩ := get_of_fits hcalm htasks hid
  rw [hfound] at hget
  exact ⟨t, hget, hlike⟩

theorem get_of_absent (hcalm : s.database.Undisturbed) (htasks : s.working.tasks = some tasks)
    (hid : Integer.fits64 id = true) (hnone : tasks.find? (·.id = id) = none) :
    ∃ t, get id s = (.error (.fault (.failure (Failure.noTask id))), t) ∧ s.Alike t := by
  obtain ⟨t, hlike, hget⟩ := get_of_fits hcalm htasks hid
  rw [hnone] at hget
  exact ⟨t, hget, hlike⟩

theorem refresh_of_stored (hcalm : s.database.Undisturbed) (htasks : s.working.tasks = some tasks)
    {t' : Task} (hid : Integer.fits64 t'.id = true) (hfound : tasks.find? (·.id = t'.id) = some task) :
    ∃ t, refresh t' s = (.ok task, t) ∧ s.Alike t := by
  have hfind : Ledger.findTask false t'.id s.working = .ok (some task) := by
    rw [Ledger.findTask_of_fits false htasks hid, hfound]
  obtain ⟨t, hread, hlike⟩ := @read_of_calm _ .load s _ hcalm _ hfind
  refine ⟨t, ?_, hlike⟩
  rw [refresh, bind_of_ok hread]
  rfl

/-- A commit, after which a task is loaded again. -/
theorem commit_refresh (hcalm : s.database.Undisturbed) (htasks : s.working.tasks = some tasks)
    {t' : Task} (hid : Integer.fits64 t'.id = true) (hfound : tasks.find? (·.id = t'.id) = some task) :
    ∃ t, (do
      commit
      refresh t' : Work Task) s = (.ok task, t) ∧ (s.saved s.working).Alike t := by
  obtain ⟨t, hcommit, hlike⟩ := commit_of_calm hcalm
  have hstored : t.working.tasks = some tasks := by
    rw [hlike.working]
    exact htasks
  obtain ⟨u, hrefresh, hlike'⟩ := refresh_of_stored (hlike.undisturbed hcalm) hstored hid hfound
  exact ⟨u, (bind_of_ok hcommit).trans hrefresh, hlike.trans hlike'⟩

theorem create_of_fits (hcalm : s.database.Undisturbed) (htasks : s.working.tasks = some tasks)
    (hfits : Integer.fits64 (Ledger.nextId tasks) = true) (d : String) :
    ∃ t, create d s = (.ok ⟨Ledger.nextId tasks, d⟩, t) ∧
      (s.saved { s.working with tasks := some (tasks ++ [⟨Ledger.nextId tasks, d⟩]) }).Alike t := by
  obtain ⟨t, hwrite, hlike⟩ := @write_of_calm _ .flush s _ _ hcalm _
    (Ledger.insertTask_of_fits htasks hfits d)
  have hstored : t.working.tasks = some (tasks ++ [⟨Ledger.nextId tasks, d⟩]) := by rw [hlike.working]
  have hnone : tasks.find? (·.id = Ledger.nextId tasks) = none :=
    Catalog.find_eq_none_iff.mpr (Catalog.ofTasks_eq_none_iff.mpr (Ledger.nextId_fresh tasks))
  have hfound : (tasks ++ [(⟨Ledger.nextId tasks, d⟩ : Task)]).find? (·.id = Ledger.nextId tasks) =
      some ⟨Ledger.nextId tasks, d⟩ := by
    rw [List.find?_append, hnone]
    simp
  obtain ⟨u, hrest, hlike'⟩ := @commit_refresh t _ _ (hlike.undisturbed hcalm) hstored
    ⟨Ledger.nextId tasks, d⟩ hfits hfound
  refine ⟨u, (bind_of_ok hwrite).trans hrest, ?_⟩
  rw [hlike.working] at hlike'
  exact (hlike.saved _).trans hlike'

theorem create_of_wide (hcalm : s.database.Undisturbed) (htasks : s.working.tasks = some tasks)
    (hwide : ¬ Integer.fits64 (Ledger.nextId tasks) = true) (d : String) :
    ∃ t, create d s = (.error Rejection.full.raised, t) ∧ s.Alike t := by
  obtain ⟨t, hwrite, hlike⟩ := @write_of_rejected _ .flush s _ hcalm _
    (Ledger.insertTask_of_wide htasks hwide d)
  exact ⟨t, bind_of_error hwrite, hlike⟩

theorem list_of_fits (hcalm : s.database.Undisturbed) (htasks : s.working.tasks = some tasks)
    {limit offset : Nat} (hlimit : Integer.fits64 limit = true) (hoffset : Integer.fits64 offset = true) :
    ∃ t, list limit offset s =
      (.ok (((tasks.mergeSort fun a b => a.id ≤ b.id).drop offset).take limit), t) ∧ s.Alike t :=
  ask_of_calm hcalm (Ledger.taskPage_of_fits htasks hlimit hoffset)

theorem describe_of_absent (hcalm : s.database.Undisturbed) (htasks : s.working.tasks = some tasks)
    (hid : Integer.fits64 id = true) (hnone : tasks.find? (·.id = id) = none) (text : Option String) :
    ∃ t, describe id text s = (.error (.fault (.failure (Failure.noTask id))), t) ∧ s.Alike t := by
  obtain ⟨t, hget, hlike⟩ := get_of_absent hcalm htasks hid hnone
  exact ⟨t, bind_of_error hget, hlike⟩

/-- What is left of a change to a task once the task has been got. -/
theorem describe_of_found (hcalm : s.database.Undisturbed) (htasks : s.working.tasks = some tasks)
    (hid : Integer.fits64 id = true) (hfound : tasks.find? (·.id = id) = some task) (text : Option String) :
    ∃ t, s.Alike t ∧ describe id text s = (do
      amend id text task
      commit
      refresh task : Work Task) t := by
  obtain ⟨t, hget, hlike⟩ := get_of_found hcalm htasks hid hfound
  refine ⟨t, hlike, ?_⟩
  rw [describe_eq]
  simp only [bind_assoc, pure_bind]
  exact bind_of_ok hget

/-- Without a new description a task stays as it is. -/
theorem describe_unchanged (hcalm : s.database.Undisturbed) (htasks : s.working.tasks = some tasks)
    (hid : Integer.fits64 id = true) (hfound : tasks.find? (·.id = id) = some task) {text : Option String}
    (htext : text = none ∨ text = some task.description) :
    ∃ t, describe id text s = (.ok task, t) ∧ (s.saved s.working).Alike t := by
  obtain ⟨t, hlike, hdescribe⟩ := describe_of_found hcalm htasks hid hfound text
  have hamend : amend id text task = pure () := by
    obtain rfl | rfl := htext
    · rfl
    · exact if_neg (not_not_intro rfl)
  rw [hamend, pure_bind] at hdescribe
  obtain rfl := (Catalog.ofTasks_of_find hfound).1
  have hstored : t.working.tasks = some tasks := by rw [hlike.working, htasks]
  obtain ⟨u, hrest, hlike'⟩ := commit_refresh (hlike.undisturbed hcalm) hstored hid hfound
  refine ⟨u, hdescribe.trans hrest, ?_⟩
  rw [hlike.working] at hlike'
  exact (hlike.saved _).trans hlike'

/-- With a new description a task has that one. One that is the same is not written, which is as if it
    had been. -/
theorem amend_some (hcalm : s.database.Undisturbed) (h : s.working.Numbered tasks)
    (hid : Integer.fits64 id = true) (hfound : tasks.find? (·.id = id) = some task) (d : String) :
    ∃ t, amend id (some d) task s = (.ok (), t) ∧
      ({ s with working := { s.working with tasks := some (tasks.map (Catalog.describing id d)) } } :
        Scope).Alike t := by
  by_cases hnew : d ≠ task.description
  · obtain ⟨t, hwrite, hlike⟩ := @change_of_calm .flush s _ hcalm (Ledger.describeTask id d)
      (Ledger.describeTask_of_fits h.stored hid d)
    exact ⟨t, (congrFun (if_pos hnew) s).trans hwrite, hlike⟩
  · obtain rfl := Decidable.not_not.mp hnew
    refine ⟨s, congrFun (if_neg hnew) s, ?_⟩
    rw [h.describing_self hfound, ← h.stored]
    exact .refl s

theorem describe_some (hcalm : s.database.Undisturbed) (h : s.working.Numbered tasks)
    (hid : Integer.fits64 id = true) (hfound : tasks.find? (·.id = id) = some task) (d : String) :
    ∃ t, describe id (some d) s = (.ok ⟨id, d⟩, t) ∧
      (s.saved { s.working with tasks := some (tasks.map (Catalog.describing id d)) }).Alike t := by
  obtain ⟨t, hlike, hdescribe⟩ := describe_of_found hcalm h.stored hid hfound (some d)
  obtain rfl := (Catalog.ofTasks_of_find hfound).1
  have hnumbered : t.working.Numbered tasks := by rwa [hlike.working]
  obtain ⟨u, hamend, hlike'⟩ := amend_some (hlike.undisturbed hcalm) hnumbered hid hfound d
  have hafter : (tasks.map (Catalog.describing task.id d)).find? (·.id = task.id) =
      some ⟨task.id, d⟩ := by
    rw [Catalog.find_describing, hfound]
    simp [Catalog.describing]
  have hstored : u.working.tasks = some (tasks.map (Catalog.describing task.id d)) := by rw [hlike'.working]
  obtain ⟨v, hrest, hlike''⟩ := commit_refresh (hlike'.undisturbed (hlike.undisturbed hcalm)) hstored hid hafter
  refine ⟨v, hdescribe.trans ((bind_of_ok hamend).trans hrest), ?_⟩
  rw [hlike'.working, hlike.working] at hlike''
  exact ((hlike.saved _).trans (hlike'.saved _)).trans hlike''

theorem delete_of_absent (hcalm : s.database.Undisturbed) (htasks : s.working.tasks = some tasks)
    (hid : Integer.fits64 id = true) (hnone : tasks.find? (·.id = id) = none) :
    ∃ t, delete id s = (.error (.fault (.failure (Failure.noTask id))), t) ∧ s.Alike t := by
  obtain ⟨t, hget, hlike⟩ := get_of_absent hcalm htasks hid hnone
  exact ⟨t, bind_of_error hget, hlike⟩

theorem delete_of_found (hcalm : s.database.Undisturbed) (htasks : s.working.tasks = some tasks)
    (hid : Integer.fits64 id = true) (hfound : tasks.find? (·.id = id) = some task) :
    ∃ t, delete id s = (.ok task, t) ∧ (s.saved { s.working with
      tasks := some (tasks.filter fun t => some (Ident.int t.id) ≠ some (.int id))
      rows := s.working.rowsAfter fun task => some task = some (.int id) }).Alike t := by
  obtain ⟨t, hget, hlike⟩ := get_of_found hcalm htasks hid hfound
  have hstored : t.working.tasks = some tasks := by rw [hlike.working, htasks]
  have hcalm' := hlike.undisturbed hcalm
  obtain ⟨u, hwrite, hlike'⟩ := @change_of_calm .flush t _ hcalm' (Ledger.deleteTask false (some (.int id)))
    (Ledger.deleteTask_of_fits hstored hid false)
  obtain ⟨v, hcommit, hlike''⟩ := commit_of_calm (hlike'.undisturbed hcalm')
  refine ⟨v, (bind_of_ok hget).trans ((bind_of_ok hwrite).trans (bind_of_ok hcommit)), ?_⟩
  rw [hlike'.working] at hlike''
  rw [hlike.working] at hlike' hlike''
  exact ((hlike.saved _).trans (hlike'.saved _)).trans hlike''

end Tasks

namespace Database

variable {α : Type} {db : Database} {context : Option Context} {work : Work α} {s : Scope} {r : Except Raised α}

/-- A scope ends as its work does. -/
theorem scope_of_work (h : work ⟨db, db.ledger⟩ = (r, s)) : ∃ db',
    scope context work db = (r.mapError (Raised.settle context), db') ∧ s.database.Alike db' := by
  rcases hscope : scope context work db with ⟨r', db'⟩
  obtain ⟨_, _, hwork, hlike, rfl⟩ := scope_cases hscope
  cases h.symm.trans hwork
  exact ⟨db', rfl, hlike⟩

end Database
end Worklog
