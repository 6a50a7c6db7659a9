import Mathlib.Data.List.Nodup
import Mathlib.Data.List.Perm.Subperm
import Mathlib.Logic.Function.Basic
import Worklog.Proofs.Database.Tasks

namespace Worklog

/-- The descriptions of the tasks by their ids. -/
abbrev Catalog := Int → Option String

namespace Catalog

variable {tasks ts ts' : List Task} {t : Task} {m : Catalog} {i id : Int} {d : String}

/-- The catalog of a table of tasks. -/
def ofTasks (tasks : List Task) : Catalog := fun i => (tasks.find? (·.id = i)).map (·.description)

theorem ofTasks_eq_none_iff : ofTasks tasks i = none ↔ ∀ t ∈ tasks, t.id ≠ i := by
  simp [ofTasks]

theorem find_eq_none_iff : tasks.find? (·.id = i) = none ↔ ofTasks tasks i = none := by
  simp [ofTasks]

theorem ofTasks_of_find (h : tasks.find? (·.id = i) = some t) :
    t.id = i ∧ ofTasks tasks i = some t.description := by
  refine ⟨of_decide_eq_true (List.find?_some (p := fun t : Task => decide (t.id = i)) h), ?_⟩
  rw [ofTasks, h]
  rfl

/-- A task under a new id is one more entry. -/
theorem ofTasks_concat (h : ∀ t' ∈ tasks, t'.id ≠ t.id) :
    ofTasks (tasks ++ [t]) = Function.update (ofTasks tasks) t.id (some t.description) := by
  funext i
  by_cases hi : i = t.id
  · subst hi
    have hnone : tasks.find? (·.id = t.id) = none := find_eq_none_iff.mpr (ofTasks_eq_none_iff.mpr h)
    rw [Function.update_self, ofTasks, List.find?_append, hnone]
    simp
  · have hother : [t].find? (·.id = i) = none := by simp [Ne.symm hi]
    rw [Function.update_of_ne hi, ofTasks, List.find?_append, hother, Option.or_none]
    rfl

/-- The task with another description, if it has the id. -/
def describing (id : Int) (d : String) (t : Task) : Task :=
  if t.id = id then { t with description := d } else t

theorem id_describing (id : Int) (d : String) (t : Task) : (describing id d t).id = t.id := by
  unfold describing
  split <;> rfl

theorem find_describing (tasks : List Task) (id i : Int) (d : String) :
    (tasks.map (describing id d)).find? (·.id = i) =
      (tasks.find? (·.id = i)).map (describing id d) := by
  rw [List.find?_map]
  congr 2
  funext t
  simp [id_describing]

/-- A description is replaced in one entry. -/
theorem ofTasks_describing (h : tasks.find? (·.id = id) = some t) (d : String) :
    ofTasks (tasks.map (describing id d)) = Function.update (ofTasks tasks) id (some d) := by
  funext i
  rw [ofTasks, find_describing, Option.map_map]
  by_cases hi : i = id
  · subst hi
    rw [Function.update_self, h, Option.map_some]
    simp [describing, (ofTasks_of_find h).1]
  · rw [Function.update_of_ne hi, ofTasks]
    cases hother : tasks.find? (·.id = i) with
    | none => rfl
    | some t' =>
      have hid : t'.id ≠ id := (ofTasks_of_find hother).1.trans_ne hi
      simp [describing, hid]

/-- The tasks but one are the entries but one. -/
theorem ofTasks_filter (tasks : List Task) (id : Int) :
    ofTasks (tasks.filter fun t => some (Ident.int t.id) ≠ some (.int id)) =
      Function.update (ofTasks tasks) id none := by
  funext i
  rw [ofTasks, List.find?_filter]
  by_cases hi : i = id
  · subst hi
    simp
  · rw [Function.update_of_ne hi, ofTasks]
    congr 2
    funext t
    by_cases ht : t.id = i
    · simp [ht, hi]
    · simp [ht]

/-- The entries in the order of their ids, each once. -/
structure Lists (m : Catalog) (ts : List Task) : Prop where
  ascending : ts.Pairwise fun a b => a.id < b.id
  complete : ∀ t, t ∈ ts ↔ m t.id = some t.description

theorem Lists.nodup (h : m.Lists ts) : ts.Nodup :=
  h.ascending.imp fun hlt heq => absurd (congrArg Task.id heq) (Int.ne_of_lt hlt)

/-- There is one list of the entries. -/
theorem Lists.unique (h : m.Lists ts) (h' : m.Lists ts') : ts = ts' := by
  have hperm : ts.Perm ts' := (List.perm_ext_iff_of_nodup h.nodup h'.nodup).mpr fun t =>
    (h.complete t).trans (h'.complete t).symm
  exact hperm.eq_of_pairwise (fun a b _ _ hab hba => absurd hab (Int.lt_asymm hba)) h.ascending h'.ascending

theorem mem_iff (hdistinct : (tasks.map (·.id)).Nodup) :
    t ∈ tasks ↔ ofTasks tasks t.id = some t.description := by
  constructor
  · intro ht
    obtain ⟨t', hfind⟩ : ∃ t', tasks.find? (·.id = t.id) = some t' := by
      rw [← Option.isSome_iff_exists, List.find?_isSome]
      exact ⟨t, ht, by simp⟩
    obtain ⟨hid, hdescription⟩ := ofTasks_of_find hfind
    have hsame : t' = t :=
      List.inj_on_of_nodup_map hdistinct (List.mem_of_find?_eq_some hfind) ht hid
    rw [hdescription, hsame]
  · intro h
    obtain ⟨t', hfind, hdescription⟩ := Option.map_eq_some_iff.mp h
    have hid : t'.id = t.id := (ofTasks_of_find hfind).1
    have hsame : t' = t := by
      cases t'
      cases t
      simp_all
    exact hsame ▸ List.mem_of_find?_eq_some hfind

/-- Sorted by their ids, the tasks list their catalog. -/
theorem lists_mergeSort (hdistinct : (tasks.map (·.id)).Nodup) :
    (ofTasks tasks).Lists (tasks.mergeSort fun a b => a.id ≤ b.id) where
  ascending := by
    have hsorted := @List.pairwise_mergeSort Task (fun a b => decide (a.id ≤ b.id))
      (fun a b c hab hbc => by
        simp only [decide_eq_true_eq] at hab hbc ⊢
        exact Int.le_trans hab hbc)
      (fun a b => by
        simp only [Bool.or_eq_true, decide_eq_true_eq]
        exact Int.le_total a.id b.id) tasks
    have hapart : (tasks.mergeSort fun a b => a.id ≤ b.id).Pairwise fun a b => a.id ≠ b.id := by
      have hperm := (List.mergeSort_perm tasks fun a b => decide (a.id ≤ b.id)).map (·.id)
      exact List.pairwise_map.mp (hperm.nodup_iff.mpr hdistinct)
    exact (hsorted.and hapart).imp fun h => Int.lt_iff_le_and_ne.mpr ⟨of_decide_eq_true h.1, h.2⟩
  complete t := by rw [List.mem_mergeSort, mem_iff hdistinct]

end Catalog

namespace Ledger

variable {tasks : List Task}

theorem maxId_eq_none_iff : maxId tasks = none ↔ tasks = [] := by
  cases tasks <;> simp [maxId]

/-- The greatest id is the id of a task. -/
theorem maxId_eq_some {top : Int} (h : maxId tasks = some top) :
    (∃ t ∈ tasks, t.id = top) ∧ ∀ t ∈ tasks, t.id ≤ top := by
  induction tasks generalizing top with
  | nil => cases h
  | cons t rest ih =>
    rw [maxId] at h
    cases hrest : maxId rest with
    | none =>
      rw [hrest] at h
      cases h
      simp [maxId_eq_none_iff.mp hrest]
    | some other =>
      rw [hrest] at h
      cases h
      obtain ⟨⟨t', ht', hid⟩, hle⟩ := ih hrest
      simp only [Option.elim_some, List.mem_cons, forall_eq_or_imp, exists_eq_or_imp]
      refine ⟨?_, Int.le_max_left _ _, fun u hu => Int.le_trans (hle u hu) (Int.le_max_right _ _)⟩
      obtain hmax | hmax := Int.le_total t.id other
      · exact .inr ⟨t', ht', by rw [hid, Int.max_eq_right hmax]⟩
      · exact .inl (Int.max_eq_left hmax).symm

/-- The free id is the least positive number that no task has. There are more candidates than tasks. -/
theorem freeId_eq (tasks : List Task) : ∃ n : Nat, freeId tasks = n + 1 ∧
    (∀ t ∈ tasks, t.id ≠ n + 1) ∧ ∀ k < n, ∃ t ∈ tasks, t.id = (k : Int) + 1 := by
  let free (n : Nat) : Bool := !tasks.any (·.id = (n : Int) + 1)
  have hfreeId : freeId tasks =
      (((List.range (tasks.length + 1)).find? free).map fun n : Nat => (n : Int) + 1).getD 1 := by
    rw [freeId, List.find?_map]
    rfl
  cases hfound : (List.range (tasks.length + 1)).find? free with
  | none =>
    have htaken : (List.range (tasks.length + 1)).map (fun n : Nat => (n : Int) + 1) ⊆
        tasks.map (·.id) := by
      intro i hi
      obtain ⟨n, hn, rfl⟩ := List.mem_map.mp hi
      have hnot := List.find?_eq_none.mp hfound n hn
      simpa [free] using hnot
    have hdistinct : ((List.range (tasks.length + 1)).map fun n : Nat => (n : Int) + 1).Nodup :=
      (List.nodup_map_iff fun a b hab => by omega).mpr List.nodup_range
    have hle := (hdistinct.subperm htaken).length_le
    simp only [List.length_map, List.length_range] at hle
    omega
  | some n =>
    obtain ⟨hn, _, hbefore⟩ := List.find?_range_eq_some.mp hfound
    refine ⟨n, by rw [hfreeId, hfound]; rfl, ?_, fun k hk => ?_⟩
    · simpa [free] using hn
    · simpa [free] using hbefore k hk

/-- The next id is no task's id. -/
theorem nextId_fresh (tasks : List Task) : ∀ t ∈ tasks, t.id ≠ nextId tasks := by
  unfold nextId
  split
  · next hnone =>
    rw [maxId_eq_none_iff.mp hnone]
    nofun
  · next top htop =>
    split
    · intro t ht heq
      have hle := (maxId_eq_some htop).2 t ht
      omega
    · obtain ⟨n, hn, hfresh, _⟩ := freeId_eq tasks
      rwa [hn]

/-- Every positive number of 64 bits is the id of a task. -/
def Full (tasks : List Task) : Prop :=
  ∀ i, 1 ≤ i → i ≤ Integer.greatest64 → ∃ t ∈ tasks, t.id = i

/-- The next id has 64 bits, unless these have run out. -/
theorem fits_nextId (h : ∀ t ∈ tasks, Integer.fits64 t.id = true) :
    Integer.fits64 (nextId tasks) = true ∨ Full tasks := by
  unfold nextId
  split
  · exact .inl (by decide)
  · next top htop =>
    split
    · next hroom =>
      obtain ⟨⟨t, ht, rfl⟩, _⟩ := maxId_eq_some htop
      have hfits := h t ht
      simp only [Integer.fits64, Bool.and_eq_true, decide_eq_true_eq] at hfits ⊢
      exact .inl ⟨by omega, by omega⟩
    · obtain ⟨n, hn, _, htaken⟩ := freeId_eq tasks
      by_cases hfits : (n : Int) + 1 ≤ Integer.greatest64
      · refine .inl ?_
        simp only [hn, Integer.fits64, Bool.and_eq_true, decide_eq_true_eq]
        exact ⟨by unfold Integer.least64; omega, hfits⟩
      · refine .inr fun i hpos hle => ?_
        obtain ⟨t, ht, hid⟩ := htaken (i - 1).toNat (by omega)
        exact ⟨t, ht, by omega⟩

variable {l : Ledger}

/-- The catalog of the stored tasks. -/
def catalog (l : Ledger) : Catalog := Catalog.ofTasks (l.tasks.getD [])

theorem find_of_catalog {i : Int} {d : String} (h : l.catalog i = some d) : ∃ tasks t,
    l.tasks = some tasks ∧ tasks.find? (·.id = i) = some t ∧ t ∈ tasks ∧ t.id = i ∧ t.description = d := by
  obtain ⟨t, hfound, hdescription⟩ := Option.map_eq_some_iff.mp h
  cases htasks : l.tasks with
  | none =>
    rw [htasks] at hfound
    cases hfound
  | some tasks =>
    rw [htasks] at hfound
    exact ⟨tasks, t, rfl, hfound, List.mem_of_find?_eq_some hfound, (Catalog.ofTasks_of_find hfound).1,
      hdescription⟩

/-- A table of tasks with ids of 64 bits, each its own. -/
structure Numbered (l : Ledger) (tasks : List Task) : Prop where
  stored : l.tasks = some tasks
  distinct : (tasks.map (·.id)).Nodup
  fits : ∀ t ∈ tasks, Integer.fits64 t.id = true

namespace Numbered

variable {id : Int} {task : Task}

theorem catalog_eq (h : l.Numbered tasks) : l.catalog = Catalog.ofTasks tasks := by
  rw [catalog, h.stored]
  rfl

theorem concat (h : l.Numbered tasks) (hfits : Integer.fits64 (nextId tasks) = true) (d : String) :
    Numbered { l with tasks := some (tasks ++ [⟨nextId tasks, d⟩]) } (tasks ++ [⟨nextId tasks, d⟩]) where
  stored := rfl
  distinct := by
    rw [List.map_append, List.map_singleton]
    refine List.nodup_append.mpr ⟨h.distinct, List.nodup_singleton _, fun i hi j hj => ?_⟩
    obtain ⟨t, ht, rfl⟩ := List.mem_map.mp hi
    rw [List.mem_singleton.mp hj]
    exact nextId_fresh tasks t ht
  fits t ht := by
    obtain ht | ht := List.mem_append.mp ht
    · exact h.fits t ht
    · rw [List.mem_singleton.mp ht]
      exact hfits

theorem describing (h : l.Numbered tasks) (id : Int) (d : String) :
    Numbered { l with tasks := some (tasks.map (Catalog.describing id d)) }
      (tasks.map (Catalog.describing id d)) where
  stored := rfl
  distinct := by
    have hids : (tasks.map (Catalog.describing id d)).map (·.id) = tasks.map (·.id) := by
      simp [Catalog.id_describing]
    rw [hids]
    exact h.distinct
  fits t ht := by
    obtain ⟨t', ht', rfl⟩ := List.mem_map.mp ht
    rw [Catalog.id_describing]
    exact h.fits t' ht'

theorem filter (h : l.Numbered tasks) (p : Task → Bool) (rows : Option (List Row)) :
    Numbered { l with tasks := some (tasks.filter p), rows } (tasks.filter p) where
  stored := rfl
  distinct := h.distinct.sublist (List.filter_sublist.map _)
  fits t ht := h.fits t (List.mem_filter.mp ht).1

/-- A task that gets the description that it has stays as it is. -/
theorem describing_self (h : l.Numbered tasks) (hfound : tasks.find? (·.id = id) = some task) :
    tasks.map (Catalog.describing id task.description) = tasks := by
  refine List.map_congr_left (fun t ht => ?_) |>.trans (List.map_id tasks)
  by_cases hid : t.id = id
  · have hsame : t = task := List.inj_on_of_nodup_map h.distinct ht (List.mem_of_find?_eq_some hfound)
      (hid.trans (Catalog.ofTasks_of_find hfound).1.symm)
    simp [Catalog.describing, hsame]
  · simp [Catalog.describing, hid]

end Numbered

variable {id : Int}

theorem insertTask_of_fits (htasks : l.tasks = some tasks) (hfits : Integer.fits64 (nextId tasks) = true)
    (d : String) : insertTask d l =
      .ok (⟨nextId tasks, d⟩, { l with tasks := some (tasks ++ [⟨nextId tasks, d⟩]) }) := by
  rw [insertTask, taskTable_eq_ok_iff.mpr htasks]
  exact if_pos hfits

theorem insertTask_of_wide (htasks : l.tasks = some tasks) (hwide : ¬ Integer.fits64 (nextId tasks) = true)
    (d : String) : insertTask d l = .error .full := by
  rw [insertTask, taskTable_eq_ok_iff.mpr htasks]
  exact if_neg hwide

theorem describeTask_of_fits (htasks : l.tasks = some tasks) (hid : Integer.fits64 id = true) (d : String) :
    describeTask id d l = .ok { l with tasks := some (tasks.map (Catalog.describing id d)) } := by
  rw [describeTask, taskTable_eq_ok_iff.mpr htasks, bindInt_of_fits hid]
  rfl

theorem deleteTask_of_fits (htasks : l.tasks = some tasks) (hid : Integer.fits64 id = true)
    (prepared : Bool) : deleteTask prepared (some (.int id)) l = .ok { l with
      tasks := some (tasks.filter fun t => some (Ident.int t.id) ≠ some (.int id))
      rows := l.rowsAfter fun task => some task = some (.int id) } := by
  have hvalue : bindIdent (some (.int id)) = .ok (some (.int id)) := by
    rw [bindIdent, bindInt_of_fits hid]
    rfl
  have htables : l.taskTable = .ok tasks := taskTable_eq_ok_iff.mpr htasks
  simp only [deleteTask, prepare_eq_ok_iff.mpr ⟨htables, hvalue⟩]
  rfl

theorem taskPage_of_fits (htasks : l.tasks = some tasks) {limit offset : Nat}
    (hlimit : Integer.fits64 limit = true) (hoffset : Integer.fits64 offset = true) (prepared : Bool) :
    taskPage prepared limit offset l =
      .ok (((tasks.mergeSort fun a b => a.id ≤ b.id).drop offset).take limit) := by
  have hvalues : (do bindInt limit; bindInt offset) = .ok () := by
    rw [bindInt_of_fits hlimit]
    exact bindInt_of_fits hoffset
  have htables : l.taskTable = .ok tasks := taskTable_eq_ok_iff.mpr htasks
  simp only [taskPage, prepare_eq_ok_iff.mpr ⟨htables, hvalues⟩]
  rfl

end Ledger
end Worklog
