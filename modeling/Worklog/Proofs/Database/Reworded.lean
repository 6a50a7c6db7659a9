import Worklog.Proofs.Database.Tasks
import Worklog.Proofs.Lockstep

namespace Worklog

open Run

/-- The same fault, but for the words of an error of the surrounding program. -/
inductive Fault.Reworded : Fault → Fault → Prop
  | same (f : Fault) : Reworded f f
  | foreign (name message message' : String) : Reworded (.foreign name message) (.foreign name message')

/-- The same error, but for the words of the database or of the surrounding program. -/
inductive Raised.Reworded : Raised → Raised → Prop
  | storage {e e' : StorageError} (kind : e.kind = e'.kind)
      (verdict : e.refusal.blamesOpenIndex = e'.refusal.blamesOpenIndex) :
      Reworded (.storage e) (.storage e')
  | fault {f f' : Fault} (h : f.Reworded f') : Reworded (.fault f) (.fault f')

theorem Raised.Reworded.refl : ∀ e : Raised, e.Reworded e
  | .storage _ => .storage rfl rfl
  | .fault f => .fault (.same f)

/-- A scope is left with the same fault, but for its words. -/
theorem Raised.Reworded.settle {e e' : Raised} (h : e.Reworded e') (context : Option Context) :
    (e.settle context).Reworded (e'.settle context) := by
  cases h with
  | storage kind _ =>
    simp only [Raised.settle, kind]
    exact .same _
  | fault h => exact h

theorem Fault.Reworded.withKey {f f' : Fault} (h : f.Reworded f') (user task : Option Ident) :
    (f.withKey user task).Reworded (f'.withKey user task) := by
  cases h with
  | same => exact .same _
  | foreign => exact .foreign _ _ _

/-- The same errors at the same accesses, but for their words. -/
def Disruption.Reworded (d d' : Disruption) : Prop :=
  ∀ n verb, Option.Rel Raised.Reworded (d n verb) (d' n verb)

/-- Two databases that differ in the log and in the words of what disturbs them. -/
structure Database.Reworded (a b : Database) : Prop where
  ledger : b.ledger = a.ledger
  accesses : b.accesses = a.accesses
  prepared : b.prepared = a.prepared
  disruption : a.disruption.Reworded b.disruption

structure Scope.Reworded (s t : Scope) : Prop where
  working : t.working = s.working
  database : s.database.Reworded t.database

namespace Work

variable {α : Type} {verb : Verb} {q : Query}

/-- Work that does not tell reworded errors apart. -/
abbrev Discreet (w : Work α) : Prop := Lockstep Scope.Reworded Raised.Reworded Eq w w

theorem discreet_pure (a : α) : Discreet (pure a) := lockstep_pure rfl

theorem discreet_refuse (f : Failure) : Discreet (refuse f : Work α) :=
  lockstep_fail (.fault (.same _))

theorem discreet_access : Discreet (access verb) := by
  intro s t hst
  have hcounted : s.counted.Reworded t.counted := ⟨hst.working, hst.database.ledger,
    congrArg (· + 1) hst.database.accesses, hst.database.prepared, hst.database.disruption⟩
  have hdisturbed := hst.database.disruption s.database.accesses verb
  rcases hs : s.database.disruption s.database.accesses verb with _ | e <;>
    rcases ht : t.database.disruption s.database.accesses verb with _ | e'
  all_goals
    rw [hs, ht] at hdisturbed
    rw [← hst.database.accesses] at ht
  · rw [access_of_quiet hs, access_of_quiet ht]
    exact ⟨.ok rfl, hcounted⟩
  · cases hdisturbed
  · cases hdisturbed
  · cases hdisturbed with
    | some he =>
      rw [access_of_disturbed hs, access_of_disturbed ht]
      exact ⟨.error he, hcounted⟩

theorem discreet_read (statement : Ledger → Except Rejection α) : Discreet (read verb statement) := by
  apply discreet_access.next
  intro _
  refine Lockstep.next (lockstep_look fun s t hst => hst.working.symm) fun l => ?_
  exact lockstep_ofExcept (.refl Raised.Reworded.refl _)

/-- What is worked on may become anything, as long as it is the same on both sides. -/
theorem discreet_replace (l : Ledger) : Discreet (Run.change fun s : Scope => { s with working := l }) :=
  lockstep_change fun _ _ hst => ⟨rfl, hst.database⟩

theorem discreet_write (statement : Ledger → Except Rejection (α × Ledger)) :
    Discreet (write verb statement) :=
  (discreet_read statement).next fun _ => (discreet_replace _).next fun _ => discreet_pure _

theorem discreet_prepare (q : Query) (r : Except Rejection α) : Discreet (prepare q r) := by
  unfold prepare
  split
  · exact discreet_pure ()
  · exact discreet_pure ()
  · exact lockstep_change fun s t hst => ⟨hst.working, hst.database.ledger, hst.database.accesses,
      congrArg (q :: ·) hst.database.prepared, hst.database.disruption⟩

theorem discreet_ask (statement : Bool → Ledger → Except Rejection α) : Discreet (ask verb q statement) := by
  apply discreet_access.next
  intro _
  refine Lockstep.bind (lockstep_look fun s t hst => hst) fun s t hst => ?_
  simp only [hst.working, hst.database.prepared]
  exact (discreet_prepare q _).next fun _ => lockstep_ofExcept (.refl Raised.Reworded.refl _)

theorem discreet_tell (statement : Bool → Ledger → Except Rejection (α × Ledger)) :
    Discreet (tell verb q statement) :=
  (discreet_ask statement).next fun _ => (discreet_replace _).next fun _ => discreet_pure _

theorem discreet_commit : Discreet commit := by
  apply discreet_access.next
  intro _
  exact lockstep_change fun s t hst => ⟨hst.working, hst.working, hst.database.accesses,
    hst.database.prepared, hst.database.disruption⟩

theorem discreet_rollback : Discreet rollback :=
  lockstep_change fun _ _ hst => ⟨hst.database.ledger, hst.database⟩

theorem discreet_note (r : Log.Record) : Discreet (note r) :=
  lockstep_change fun _ _ hst => ⟨hst.working, hst.database.ledger, hst.database.accesses,
    hst.database.prepared, hst.database.disruption⟩

end Work

namespace Tasks

open Work

theorem discreet_get (id : Int) : Discreet (get id) := by
  apply (discreet_ask _).next
  intro found
  cases found with
  | some t => exact discreet_pure t
  | none => exact discreet_refuse _

theorem discreet_refresh (t : Task) : Discreet (refresh t) :=
  (discreet_read _).next fun _ => discreet_pure _

theorem discreet_create (description : String) : Discreet (create description) :=
  (discreet_write _).next fun t => discreet_commit.next fun _ => discreet_refresh t

theorem discreet_amend (id : Int) (description : Option String) (t : Task) :
    Discreet (amend id description t) := by
  unfold amend
  split
  · split
    · exact discreet_write _
    · exact discreet_pure ()
  · exact discreet_pure ()

theorem discreet_describe (id : Int) (description : Option String) : Discreet (describe id description) := by
  rw [describe_eq]
  refine Lockstep.next ?_ discreet_refresh
  exact (discreet_get id).next fun t => (discreet_amend id description t).next fun _ =>
    discreet_commit.next fun _ => discreet_pure t

theorem discreet_delete (id : Int) : Discreet (delete id) :=
  (discreet_get id).next fun t => (discreet_write _).next fun _ => discreet_commit.next fun _ =>
    discreet_pure t

theorem discreet_descriptions (ids : List Ident) : Discreet (descriptions ids) := by
  unfold descriptions
  split
  · exact discreet_pure []
  · exact discreet_read _

end Tasks

namespace Database

variable {α : Type}

/-- A use of the database that does not tell reworded errors apart. -/
abbrev Discreet (x : Use α) : Prop := Lockstep Database.Reworded Fault.Reworded Eq x x

theorem reworded_note {a b : Database} (h : a.Reworded b) (r r' : Log.Record) :
    (a.note r).Reworded (b.note r') := ⟨h.ledger, h.accesses, h.prepared, h.disruption⟩

/-- What an attempt comes to may be an error, and then in other words. -/
theorem attempt_lockstep {w : Work α} (hw : Work.Discreet w) :
    Lockstep Database.Reworded Fault.Reworded (EndsAlike Raised.Reworded Eq) (attempt w) (attempt w) := by
  intro a b hab
  have hstart : Scope.Reworded ⟨a, a.ledger⟩ ⟨b, b.ledger⟩ := ⟨hab.ledger, hab⟩
  obtain ⟨hends, hafter⟩ := hw _ _ hstart
  exact ⟨.ok hends, hafter.database⟩

theorem leave_lockstep {e e' : Raised} (h : e.Reworded e') (context : Option Context) :
    Lockstep Database.Reworded Fault.Reworded Eq (leave context e : Use α) (leave context e') := by
  intro a b hab
  refine ⟨.error (h.settle context), ?_⟩
  cases h with
  | storage => exact reworded_note hab _ _
  | fault => exact hab

theorem discreet_scope (context : Option Context) {w : Work α} (hw : Work.Discreet w) :
    Discreet (scope context w) := by
  refine (attempt_lockstep hw).bind fun r r' hends => ?_
  cases hends with
  | ok h => exact lockstep_pure h
  | error h => exact leave_lockstep h context

end Database

namespace Primitive

open Work

theorem discreet_openInterval (key : KeyRef) : Database.Discreet (openInterval key) := by
  refine Database.discreet_scope _ ((discreet_ask _).next fun rows => ?_)
  unfold single
  split
  · exact discreet_pure _
  · exact discreet_pure _
  · exact discreet_refuse _

theorem discreet_insert (fresh : Uuid) (key : KeyRef) (started : Moment) (stopped : Option Moment) :
    Discreet (insert fresh key started stopped) :=
  (discreet_tell _).next fun _ => discreet_commit.next fun _ => discreet_pure _

/-- A rejected insertion is judged by the class of its error and by whether the index of open intervals is
    to blame. -/
theorem judgeBegin_lockstep (key : KeyRef) {r r' : Except Raised Interval}
    (h : EndsAlike Raised.Reworded Eq r r') :
    Lockstep Database.Reworded Fault.Reworded Eq (judgeBegin key r) (judgeBegin key r') := by
  cases h with
  | ok h =>
    subst h
    exact lockstep_pure rfl
  | error h =>
    cases h with
    | fault h => exact Database.leave_lockstep (.fault h) _
    | @storage e e' kind verdict =>
      by_cases hkind : e.kind = .integrity
      · have hkind' : e'.kind = .integrity := kind ▸ hkind
        simp only [judgeBegin, if_pos hkind, if_pos hkind', beginRejected, ← verdict]
        split
        · exact lockstep_pure rfl
        · exact (lockstep_change fun _ _ hab => Database.reworded_note hab _ _).next fun _ =>
            lockstep_fail (.same _)
      · have hkind' : ¬ e'.kind = .integrity := kind ▸ hkind
        simp only [judgeBegin, if_neg hkind, if_neg hkind']
        exact Database.leave_lockstep (.storage kind verdict) _

theorem discreet_beginInterval (fresh : Uuid) (key : KeyRef) (started : Moment) :
    Database.Discreet (beginInterval fresh key started) :=
  (Database.attempt_lockstep (discreet_insert fresh key started none)).bind fun _ _ h =>
    judgeBegin_lockstep key h

theorem discreet_closeRow (id : Uuid) (stopped : Moment) : Discreet (closeRow id stopped) := by
  refine (discreet_write _).handle fun e e' h => ?_
  cases h with
  | fault h => exact lockstep_fail (.fault h)
  | @storage e e' kind verdict =>
    by_cases hkind : e.kind = .integrity
    · have hkind' : e'.kind = .integrity := kind ▸ hkind
      simp only [if_pos hkind, if_pos hkind']
      exact discreet_rollback.next fun _ => discreet_refuse _
    · have hkind' : ¬ e'.kind = .integrity := kind ▸ hkind
      simp only [if_neg hkind, if_neg hkind']
      exact lockstep_fail (.storage kind verdict)

theorem discreet_closeInterval (id : Uuid) (stopped : Moment) :
    Database.Discreet (closeInterval id stopped) := by
  refine Database.discreet_scope _ ((discreet_closeRow id stopped).next fun n => ?_)
  split
  · exact discreet_rollback.next fun _ => discreet_pure _
  · exact (discreet_read _).next fun _ => discreet_commit.next fun _ => discreet_pure _

theorem discreet_intervalsOverlapping (user : Option Ident) (start stop : Moment) :
    Database.Discreet (intervalsOverlapping user start stop) :=
  Database.discreet_scope _ ((discreet_ask _).next fun _ => discreet_pure _)

end Primitive
end Worklog
