import Worklog.Proofs.Database.Atomic
import Worklog.Proofs.Database.Tasks

namespace Worklog

open Run

namespace Work

variable {α β : Type} {verb : Verb} {q : Query} {P : Ledger → Prop} {w : Work α} {f : α → Work β}

/-- Work that leaves a property of the tables true. -/
def Upholds (P : Ledger → Prop) (w : Work α) : Prop := ∀ s, P s.working →
  P (w s).2.working ∧ (P s.lasting → P (w s).2.lasting)

/-- The second part of a sequence may rely on how the first has ended. -/
theorem Upholds.bind_ok (hw : Upholds P w) (hf : ∀ s a t, P s.working → w s = (.ok a, t) → Upholds P (f a)) :
    Upholds P (w >>= f) := by
  intro s hs
  have hfirst := hw s hs
  rcases hrun : w s with ⟨e | a, t⟩
  · rw [bind_of_error hrun]
    rwa [hrun] at hfirst
  · rw [bind_of_ok hrun]
    rw [hrun] at hfirst
    obtain ⟨hworking, hlasting⟩ := hf s a t hs hrun t hfirst.1
    exact ⟨hworking, fun h => hlasting (hfirst.2 h)⟩

theorem Upholds.bind (hw : Upholds P w) (hf : ∀ a, Upholds P (f a)) : Upholds P (w >>= f) :=
  hw.bind_ok fun _ a _ _ _ => hf a

theorem upholds_of_still (hworking : ∀ s, (w s).2.working = s.working) (hlasting : Keeps Scope.lasting w) :
    Upholds P w := by
  intro s hs
  rw [hworking s, hlasting s]
  exact ⟨hs, id⟩

theorem upholds_pure (a : α) : Upholds P (pure a) := upholds_of_still (fun _ => rfl) (keeps_pure a)

theorem upholds_note (r : Log.Record) : Upholds P (note r) := upholds_of_still (fun _ => rfl) (keeps_note r)

theorem upholds_read (statement : Ledger → Except Rejection α) : Upholds P (read verb statement) :=
  upholds_of_still (fun _ => (read_cases rfl).1.working) (keeps_read statement)

theorem upholds_ask (statement : Bool → Ledger → Except Rejection α) : Upholds P (ask verb q statement) :=
  upholds_of_still (fun _ => (ask_cases rfl).1.working) (keeps_ask statement)

theorem upholds_write {statement : Ledger → Except Rejection (α × Ledger)}
    (h : ∀ l a l', statement l = .ok (a, l') → P l → P l') : Upholds P (write verb statement) := by
  intro s hs
  rcases hwrite : write verb statement s with ⟨r, t⟩
  have hlasting : t.lasting = s.lasting := (keeps_write statement).after hwrite
  refine ⟨?_, fun hs => hlasting ▸ hs⟩
  obtain ⟨hlike, _⟩ | ⟨a, l, hstatement, _, hlike⟩ := write_cases hwrite
  · rw [hlike.working]
    exact hs
  · rw [hlike.working]
    exact h s.working a l hstatement hs

theorem upholds_commit : Upholds P commit := by
  intro s hs
  rcases hcommit : commit s with ⟨r, t⟩
  obtain ⟨hlike, _⟩ | ⟨_, hlike⟩ := commit_cases hcommit
  · have hlasting : t.lasting = s.lasting := hlike.database.ledger
    rw [hlasting, hlike.working]
    exact ⟨hs, id⟩
  · have hlasting : t.lasting = s.working := hlike.database.ledger
    rw [hlasting, hlike.working]
    exact ⟨hs, fun _ => hs⟩

end Work

namespace Tasks

open Work

variable {P : Ledger → Prop}

theorem upholds_get (id : Int) : Upholds P (get id) := by
  apply (upholds_ask _).bind
  intro found
  cases found with
  | some t => exact upholds_pure t
  | none => exact upholds_of_still (fun _ => rfl) (keeps_fail _)

theorem upholds_refresh (t : Task) : Upholds P (refresh t) :=
  (upholds_read _).bind fun _ => upholds_pure _

theorem upholds_create {d : String}
    (h : ∀ l t l', Ledger.insertTask d l = .ok (t, l') → P l → P l') : Upholds P (create d) :=
  (upholds_write h).bind fun t => upholds_commit.bind fun _ => upholds_refresh t

theorem upholds_amend {id : Int} {text : Option String} {t : Task}
    (h : ∀ d, text = some d → d ≠ t.description →
      ∀ l l', Ledger.describeTask id d l = .ok l' → P l → P l') : Upholds P (amend id text t) := by
  unfold amend
  split
  · next d =>
    split
    · next hnew =>
      apply upholds_write
      intro l a l' hwrite hl
      obtain ⟨after, hafter, hpair⟩ := except_map_eq_ok_iff.mp hwrite
      cases hpair
      exact h d rfl hnew l l' hafter hl
    · exact upholds_pure ()
  · exact upholds_pure ()

/-- A task that was got is the first with its id. -/
theorem find_of_get {id : Int} {t : Task} {s u : Scope} (h : get id s = (.ok t, u)) :
    ∃ tasks, s.working.tasks = some tasks ∧ tasks.find? (·.id = id) = some t := by
  obtain ⟨found, v, hask, hrest⟩ | ⟨_, _, hr⟩ := bind_eq_iff.mp h
  · obtain ⟨_, ⟨_, _, hr⟩ | ⟨prepared, found', hfind, hr⟩⟩ := ask_cases hask
    · cases hr
    · cases hr
      obtain ⟨tasks, htasks, _, hfound⟩ := Ledger.findTask_eq_ok hfind
      cases found with
      | none => cases hrest
      | some t' =>
        cases hrest
        exact ⟨tasks, htasks, hfound.symm⟩
  · cases hr

/-- Only a description that differs from the one of the task that was found is written. -/
theorem upholds_describe {id : Int} {text : Option String}
    (h : ∀ d, text = some d →
      (∃ l tasks t, P l ∧ l.tasks = some tasks ∧ tasks.find? (·.id = id) = some t ∧ d ≠ t.description) →
      ∀ l l', Ledger.describeTask id d l = .ok l' → P l → P l') : Upholds P (describe id text) := by
  rw [describe_eq]
  refine Upholds.bind ?_ upholds_refresh
  refine (upholds_get id).bind_ok fun s t u hs hget => ?_
  obtain ⟨tasks, htasks, hfound⟩ := find_of_get hget
  have hamend : Upholds P (amend id text t) := upholds_amend fun d hd hnew =>
    h d hd ⟨s.working, tasks, t, hs, htasks, hfound, hnew⟩
  exact hamend.bind fun _ => upholds_commit.bind fun _ => upholds_pure t

theorem upholds_delete {id : Int}
    (h : ∀ l l', Ledger.deleteTask false (some (.int id)) l = .ok l' → P l → P l') :
    Upholds P (delete id) := by
  refine (upholds_get id).bind fun t => Upholds.bind ?_ fun _ => upholds_commit.bind fun _ => upholds_pure t
  apply upholds_write
  intro l a l' hwrite hl
  obtain ⟨after, hafter, hpair⟩ := except_map_eq_ok_iff.mp hwrite
  cases hpair
  exact h l l' hafter hl

end Tasks

namespace Database

variable {α : Type} {P : Ledger → Prop}

/-- A scope upholds for good what its work upholds. -/
theorem upheld_by_scope {context : Option Context} {work : Work α} (hwork : Work.Upholds P work)
    {db : Database} (h : P db.ledger) : P (scope context work db).2.ledger := by
  rw [(scope_leaves context work db).1]
  exact (hwork ⟨db, db.ledger⟩ h).2 h

end Database

namespace Ledger

/-- A property of every stored task. -/
def EachTask (Q : Task → Prop) (l : Ledger) : Prop := ∀ tasks, l.tasks = some tasks → ∀ t ∈ tasks, Q t

variable {Q : Task → Prop} {l l' : Ledger}

theorem eachTask_congr (h : l'.tasks = l.tasks) : l'.EachTask Q ↔ l.EachTask Q := by
  simp only [EachTask, h]

theorem EachTask.insertTask {d : String} {t : Task} (h : l.EachTask Q)
    (hnew : ∀ t : Task, t.description = d → Integer.fits64 t.id = true → Q t)
    (hinsert : insertTask d l = .ok (t, l')) : l'.EachTask Q := by
  obtain ⟨tasks, htable, hstore⟩ := except_bind_eq_ok_iff.mp hinsert
  dsimp only at hstore
  split at hstore
  · next hfits =>
    cases hstore
    rintro _ ⟨⟩ t ht
    obtain ht | ht := List.mem_append.mp ht
    · exact h tasks (taskTable_eq_ok_iff.mp htable) t ht
    · rw [List.mem_singleton.mp ht]
      exact hnew _ rfl hfits
  · cases hstore

theorem EachTask.describeTask {id : Int} {d : String} (h : l.EachTask Q)
    (hnew : ∀ t, Q t → Q { t with description := d }) (hdescribe : describeTask id d l = .ok l') :
    l'.EachTask Q := by
  obtain ⟨tasks, htable, hrest⟩ := except_bind_eq_ok_iff.mp hdescribe
  obtain ⟨_, _, hafter⟩ := except_bind_eq_ok_iff.mp hrest
  cases hafter
  rintro _ ⟨⟩ t ht
  obtain ⟨t', ht', rfl⟩ := List.mem_map.mp ht
  have hold := h tasks (taskTable_eq_ok_iff.mp htable) t' ht'
  split
  · exact hnew t' hold
  · exact hold

theorem EachTask.deleteTask {prepared : Bool} {id : Option Ident} (h : l.EachTask Q)
    (hdelete : deleteTask prepared id l = .ok l') : l'.EachTask Q := by
  obtain ⟨⟨tasks, _⟩, hprepare, hafter⟩ := except_bind_eq_ok_iff.mp hdelete
  cases hafter
  rintro _ ⟨⟩ t ht
  exact h tasks (taskTable_eq_ok_iff.mp (prepare_eq_ok_iff.mp hprepare).1) t (List.mem_filter.mp ht).1

end Ledger
end Worklog
