import Worklog.Proofs.Database.Atomic
import Worklog.Store.Tasks

namespace Worklog

namespace Ledger

variable {l l' : Ledger} {tasks : List Task}

theorem taskTable_eq_ok_iff : l.taskTable = .ok tasks ↔ l.tasks = some tasks := by
  cases h : l.tasks <;> simp [taskTable, h]

/-- A stored task has an id of 64 bits. -/
theorem insertTask_eq_ok {description : String} {task : Task}
    (h : insertTask description l = .ok (task, l')) :
    ∃ tasks, l'.tasks = some tasks ∧ Integer.fits64 task.id = true := by
  obtain ⟨tasks, _, h⟩ := except_bind_eq_ok_iff.mp h
  dsimp only at h
  split at h
  · next hfits =>
    cases h
    exact ⟨_, rfl, hfits⟩
  · cases h

theorem findTask_of_fits (prepared : Bool) {id : Int} (htasks : l.tasks = some tasks)
    (hid : Integer.fits64 id = true) :
    findTask prepared id l = .ok (tasks.find? (·.id = id)) := by
  have htables : l.taskTable = .ok tasks := taskTable_eq_ok_iff.mpr htasks
  have hvalues : bindInt id = .ok () := bindInt_of_fits hid
  simp only [findTask, prepare_eq_ok_iff.mpr ⟨htables, hvalues⟩]
  rfl

theorem findTask_eq_ok {prepared : Bool} {id : Int} {found : Option Task}
    (h : findTask prepared id l = .ok found) :
    ∃ tasks, l.tasks = some tasks ∧ Integer.fits64 id = true ∧ found = tasks.find? (·.id = id) := by
  obtain ⟨⟨tasks, _⟩, hprepare, h⟩ := except_bind_eq_ok_iff.mp h
  obtain ⟨htables, hvalues⟩ := prepare_eq_ok_iff.mp hprepare
  cases h
  refine ⟨tasks, taskTable_eq_ok_iff.mp htables, ?_, rfl⟩
  unfold bindInt at hvalues
  split at hvalues
  · assumption
  · cases hvalues

theorem tasks_of_describeTask {id : Int} {description : String}
    (h : (describeTask id description l).map ((), ·) = .ok ((), l')) :
    ∃ tasks, l'.tasks = some tasks := by
  cases hdescribe : describeTask id description l with
  | error x =>
    rw [hdescribe] at h
    cases h
  | ok m =>
    rw [hdescribe] at h
    cases h
    obtain ⟨tasks, _, hrest⟩ := except_bind_eq_ok_iff.mp hdescribe
    obtain ⟨_, _, hrest⟩ := except_bind_eq_ok_iff.mp hrest
    cases hrest
    exact ⟨_, rfl⟩

end Ledger

namespace Tasks

open Run Work

theorem local_get (id : Int) : Local (get id) := by
  refine (local_ask _).bind fun found => ?_
  cases found with
  | some t => exact local_pure t
  | none => exact local_refuse _

theorem keeps_get (id : Int) : Keeps Scope.lasting (get id) := by
  refine (keeps_ask _).bind fun found => ?_
  cases found with
  | some t => exact keeps_pure t
  | none => exact keeps_fail _

theorem keeps_refresh (t : Task) : Keeps Scope.lasting (refresh t) :=
  (keeps_read _).bind fun _ => keeps_pure _

/-- A task that can be looked up is not loaded again only if an error comes from outside. -/
theorem refresh_struck {task : Task} {s t : Scope} {e : Raised} {found : Option Task}
    (hfound : Ledger.findTask false task.id s.working = .ok found)
    (h : refresh task s = (.error e, t)) :
    ∃ verb, s.database.disruption s.database.accesses verb = some e ∧
      t.database.accesses = s.database.accesses + 1 := by
  refine ⟨.load, ?_⟩
  cases hquiet : s.database.disruption s.database.accesses .load with
  | some e' =>
    rw [refresh, bind_of_error (read_of_disturbed hquiet)] at h
    cases h
    exact ⟨rfl, rfl⟩
  | none =>
    rw [refresh, bind_of_ok (read_of_quiet hquiet hfound)] at h
    cases h

theorem create_eq (description : String) :
    create description = (do
      let t ← write .flush (Ledger.insertTask description)
      commit
      return t) >>= refresh := by
  simp only [create, bind_assoc, pure_bind]

/-- The change that a new description asks for, if there is one. -/
def amend (id : Int) (description : Option String) (t : Task) : Work Unit :=
  match description with
  | some text =>
    if text ≠ t.description then write .flush fun l => (l.describeTask id text).map ((), ·)
    else pure ()
  | none => pure ()

theorem describe_eq (id : Int) (description : Option String) :
    describe id description = (do
      let t ← get id
      amend id description t
      commit
      return t) >>= refresh := by
  simp only [describe, bind_assoc, pure_bind, amend]
  refine bind_congr fun t => ?_
  cases description with
  | none => rfl
  | some text =>
    by_cases hnew : text ≠ t.description
    · simp only [if_pos hnew]
    · simp only [if_neg hnew]
      rfl

theorem local_amend (id : Int) (description : Option String) (t : Task) :
    Local (amend id description t) := by
  unfold amend
  split
  · split
    · exact local_write _
    · exact local_pure ()
  · exact local_pure ()

theorem keeps_amend (id : Int) (description : Option String) (t : Task) :
    Keeps Scope.lasting (amend id description t) := by
  unfold amend
  split
  · split
    · exact keeps_write _
    · exact keeps_pure ()
  · exact keeps_pure ()

/-- A task that was got has an id of 64 bits, and its table is there. -/
theorem get_found {id : Int} {task : Task} {s t : Scope} (h : get id s = (.ok task, t)) :
    ∃ tasks, t.working.tasks = some tasks ∧ Integer.fits64 task.id = true := by
  obtain ⟨found, u, hask, hrest⟩ | ⟨_, _, hr⟩ := bind_eq_iff.mp h
  · cases found with
    | none => cases hrest
    | some t =>
      cases hrest
      obtain ⟨hlike, ⟨_, _, hr⟩ | ⟨prepared, found, hfind, hr⟩⟩ := ask_cases hask
      · cases hr
      · cases hr
        obtain ⟨tasks, htasks, hid, hfound⟩ := Ledger.findTask_eq_ok hfind
        refine ⟨tasks, hlike.working ▸ htasks, ?_⟩
        have hmatch := List.find?_some hfound.symm
        rw [of_decide_eq_true hmatch]
        exact hid
  · cases hr

theorem tasks_of_amend {id : Int} {description : Option String} {task : Task} {s t : Scope}
    {tasks : List Task} (h : amend id description task s = (.ok (), t))
    (htasks : s.working.tasks = some tasks) : ∃ after, t.working.tasks = some after := by
  unfold amend at h
  split at h
  · split at h
    · obtain ⟨_, _, _, hr⟩ | ⟨_, l, hdescribe, _, hlike⟩ := write_cases h
      · cases hr
      · rw [hlike.working]
        exact Ledger.tasks_of_describeTask hdescribe
    · cases h
      exact ⟨tasks, htasks⟩
  · cases h
    exact ⟨tasks, htasks⟩

theorem settles_create (description : String) : Settles (create description) := by
  rw [create_eq]
  refine Settles.of_commit ?_ ?_ keeps_refresh fun s task t e u hcreated hrefresh => ?_
  · exact (local_write _).bind fun task => local_commit.bind fun _ => local_pure task
  · exact (keeps_write _).bind_spares fun task =>
      spares_commit.bind_succeeds fun _ => succeeds_pure task
  · obtain ⟨first, v, hwrite, hrest⟩ | ⟨_, _, hr⟩ := bind_eq_iff.mp hcreated
    · obtain ⟨_, w, hcommit, hlast⟩ | ⟨_, _, hr⟩ := bind_eq_iff.mp hrest
      · cases hlast
        obtain ⟨_, _, _, hr⟩ | ⟨_, l, hinsert, hr, hlike⟩ := write_cases hwrite
        · cases hr
        cases hr
        obtain ⟨tasks, htasks, hid⟩ := Ledger.insertTask_eq_ok hinsert
        refine refresh_struck (Ledger.findTask_of_fits false (?_ : t.working.tasks = some tasks) hid)
          hrefresh
        rw [working_of_commit hcommit, hlike.working, htasks]
      · cases hr
    · cases hr

theorem settles_describe (id : Int) (description : Option String) :
    Settles (describe id description) := by
  rw [describe_eq]
  refine Settles.of_commit ?_ ?_ keeps_refresh fun s task t e u hdescribed hrefresh => ?_
  · exact (local_get id).bind fun task => (local_amend id description task).bind fun _ =>
      local_commit.bind fun _ => local_pure task
  · exact (keeps_get id).bind_spares fun task => (keeps_amend id description task).bind_spares fun _ =>
      spares_commit.bind_succeeds fun _ => succeeds_pure task
  · obtain ⟨first, v, hget, hrest⟩ | ⟨_, _, hr⟩ := bind_eq_iff.mp hdescribed
    · obtain ⟨_, w, hamend, hrest⟩ | ⟨_, _, hr⟩ := bind_eq_iff.mp hrest
      · obtain ⟨_, x, hcommit, hlast⟩ | ⟨_, _, hr⟩ := bind_eq_iff.mp hrest
        · cases hlast
          obtain ⟨tasks, htasks, hid⟩ := get_found hget
          obtain ⟨after, hafter⟩ := tasks_of_amend hamend htasks
          refine refresh_struck (Ledger.findTask_of_fits false (?_ : t.working.tasks = some after) hid)
            hrefresh
          rw [working_of_commit hcommit, hafter]
        · cases hr
      · cases hr
    · cases hr

theorem spares_delete (id : Int) : Spares Scope.lasting (delete id) :=
  (keeps_get id).bind_spares fun task => (keeps_write _).bind_spares fun _ =>
    spares_commit.bind_succeeds fun _ => succeeds_pure task

end Tasks
end Worklog
