import Worklog.Proofs.Database.CalmTasks
import Worklog.Proofs.Schedule.System

namespace Worklog

open Run

/-- A change of rows, which the database may reject. -/
abbrev Edit := Ledger → Except Rejection Ledger

/-- A step of a block of work: a change that is written, or a commit. -/
inductive BlockStep where
  | edit (change : Edit)
  | commit

namespace BlockStep

/-- Carries the step out. -/
def run : BlockStep → Work Unit
  | edit change => Work.write .flush fun l => (change l).map ((), ·)
  | commit => Work.commit

def isCommit : BlockStep → Bool
  | edit _ => false
  | commit => true

end BlockStep

namespace Block

/-- Carries the steps out, one after the other. -/
def run : List BlockStep → Work Unit
  | [] => pure ()
  | step :: steps => do
    step.run
    run steps

/-- A block in which an error is raised after its steps. -/
def raising (steps : List BlockStep) (raised : Raised) : Work Unit := do
  run steps
  Run.fail raised

/-- The changes of a block. -/
def edits : List BlockStep → List Edit
  | [] => []
  | .edit change :: steps => change :: edits steps
  | .commit :: steps => edits steps

/-- The changes of a block before its last commit. -/
def committed : List BlockStep → List Edit
  | [] => []
  | .edit change :: steps => if steps.any BlockStep.isCommit then change :: committed steps else []
  | .commit :: steps => committed steps

/-- Makes changes one after the other. -/
def apply (changes : List Edit) (l : Ledger) : Except Rejection Ledger :=
  changes.foldlM (fun l change => change l) l

variable {steps first pending : List BlockStep} {s t : Scope} {e : Raised}

@[simp] theorem apply_nil (l : Ledger) : apply [] l = .ok l := rfl

theorem apply_cons (change : Edit) (changes : List Edit) (l : Ledger) :
    apply (change :: changes) l = change l >>= apply changes :=
  List.foldlM_cons

theorem committed_of_no_commit (h : steps.any BlockStep.isCommit = false) : committed steps = [] := by
  induction steps with
  | nil => rfl
  | cons step steps ih =>
    rw [List.any_cons, Bool.or_eq_false_iff] at h
    cases step with
    | edit change => rw [committed, h.2, if_neg Bool.false_ne_true]
    | commit => cases h.1

theorem any_isCommit_edits (changes : List Edit) :
    (changes.map BlockStep.edit).any BlockStep.isCommit = false := by
  simp [BlockStep.isCommit]

/-- The changes before a commit that no other follows are those that are committed. -/
theorem committed_append_commit (h : pending.any BlockStep.isCommit = false) :
    committed (first ++ .commit :: pending) = edits first := by
  induction first with
  | nil => rw [List.nil_append, committed, committed_of_no_commit h, edits]
  | cons step first ih =>
    cases step with
    | edit change =>
      have hlater : (first ++ .commit :: pending).any BlockStep.isCommit = true := by
        simp [BlockStep.isCommit]
      rw [List.cons_append, committed, if_pos hlater, ih, edits]
    | commit => rw [List.cons_append, committed, ih, edits]

/-- A step that fails changes nothing. -/
theorem ledger_of_step_error {step : BlockStep} (h : step.run s = (.error e, t)) :
    t.database.ledger = s.database.ledger := by
  cases step with
  | edit change =>
    obtain ⟨hlike, -⟩ | ⟨_, _, _, hr, _⟩ := Work.write_cases h
    · exact hlike.database.ledger
    · cases hr
  | commit =>
    obtain ⟨hlike, -⟩ | ⟨hr, _⟩ := Work.commit_cases h
    · exact hlike.database.ledger
    · cases hr

/-- A block that is carried out makes its changes up to the last commit for good, and no others. -/
theorem ledger_of_run (h : run steps s = (.ok (), t)) :
    if steps.any BlockStep.isCommit then apply (committed steps) s.working = .ok t.database.ledger
    else t.database.ledger = s.database.ledger := by
  -- The working copy only matters while a commit is still to come, and a commit makes it the ledger.
  induction steps generalizing s with
  | nil =>
    cases h
    rfl
  | cons step steps ih =>
    obtain ⟨_, u, hstep, hrest⟩ | ⟨_, _, hr⟩ := bind_eq_iff.mp h
    · have hlater := ih hrest
      cases step with
      | edit change =>
        obtain ⟨-, _, _, hr⟩ | ⟨_, l, hchange, -, hlike⟩ := Work.write_cases hstep
        · cases hr
        obtain ⟨l', hedit, hpair⟩ := except_map_eq_ok_iff.mp hchange
        cases hpair
        rw [hlike.working, hlike.database.ledger] at hlater
        rw [List.any_cons, BlockStep.isCommit, Bool.false_or, committed]
        split at hlater
        · next hcommits =>
          rw [if_pos hcommits, if_pos hcommits, apply_cons, hedit]
          exact hlater
        · next hnone =>
          rw [if_neg hnone]
          exact hlater
      | commit =>
        obtain ⟨-, _, _, hr⟩ | ⟨-, hlike⟩ := Work.commit_cases hstep
        · cases hr
        rw [hlike.working, hlike.database.ledger] at hlater
        rw [List.any_cons, BlockStep.isCommit, Bool.true_or, if_pos rfl, committed]
        split at hlater
        · exact hlater
        · next hnone =>
          rw [committed_of_no_commit (Bool.not_eq_true _ ▸ hnone), hlater]
          rfl
    · cases hr

/-- A block that fails has carried some steps out, and changes nothing at the next. -/
theorem run_of_error (h : run steps s = (.error e, t)) :
    ∃ done step rest u, steps = done ++ step :: rest ∧ run done s = (.ok (), u) ∧
      step.run u = (.error e, t) ∧ t.database.ledger = u.database.ledger := by
  induction steps generalizing s with
  | nil => cases h
  | cons step steps ih =>
    obtain ⟨_, u, hstep, hrest⟩ | ⟨_, hstep, hr⟩ := bind_eq_iff.mp h
    · obtain ⟨done, failed, rest, v, rfl, hdone, hfailed, hledger⟩ := ih hrest
      exact ⟨step :: done, failed, rest, v, rfl, (bind_of_ok hstep).trans hdone, hfailed, hledger⟩
    · cases hr
      exact ⟨[], step, steps, s, rfl, rfl, hstep, ledger_of_step_error hstep⟩

/-- On an undisturbed database a block is carried out if its changes can be made one after the other. -/
theorem run_of_accepted (hcalm : s.database.Undisturbed) {l : Ledger}
    (h : apply (edits steps) s.working = .ok l) : ∃ t, run steps s = (.ok (), t) := by
  induction steps generalizing s with
  | nil => exact ⟨s, rfl⟩
  | cons step steps ih =>
    cases step with
    | edit change =>
      rw [edits, apply_cons, except_bind_eq_ok_iff] at h
      obtain ⟨l₁, hedit, hlater⟩ := h
      obtain ⟨u, hstep, hlike⟩ : ∃ u, (BlockStep.edit change).run s = (.ok (), u) ∧
          ({ s with working := l₁ } : Scope).Alike u := Work.change_of_calm hcalm hedit
      rw [← show u.working = l₁ from hlike.working] at hlater
      obtain ⟨t, hrest⟩ := ih (hlike.undisturbed hcalm) hlater
      exact ⟨t, (bind_of_ok hstep).trans hrest⟩
    | commit =>
      obtain ⟨u, hstep, hlike⟩ := Work.commit_of_calm hcalm
      rw [edits, ← show u.working = s.working from hlike.working] at h
      obtain ⟨t, hrest⟩ := ih (hlike.undisturbed hcalm) h
      exact ⟨t, (bind_of_ok hstep).trans hrest⟩

variable {db : Database}

/-- The error of a piece of work leaves its scope, and what the work has committed stays. -/
theorem scope_of_error {work : Work Unit} (context : Option Context)
    (h : work ⟨db, db.ledger⟩ = (.error e, t)) :
    ∃ db', Database.scope context work db = (.error (e.settle context), db') ∧
      db'.ledger = t.database.ledger := by
  rcases hscope : Database.scope context work db with ⟨answer, db'⟩
  obtain ⟨final, u, hwork, hlike, rfl⟩ := Database.scope_cases hscope
  cases hwork.symm.trans h
  exact ⟨db', rfl, hlike.ledger⟩

/-- What a block leaves of the ledger on which it starts. -/
theorem apply_committed (h : run steps ⟨db, db.ledger⟩ = (.ok (), s)) :
    apply (committed steps) db.ledger = .ok s.database.ledger := by
  have hleft := ledger_of_run h
  split at hleft
  · exact hleft
  · next hnone => rw [hleft, committed_of_no_commit (Bool.not_eq_true _ ▸ hnone), apply_nil]

/-- An error that is raised after a block leaves the scope, and undoes what the block has not committed. -/
theorem scope_of_raised (context : Option Context) (raised : Raised)
    (h : run steps ⟨db, db.ledger⟩ = (.ok (), s)) :
    ∃ db', Database.scope context (raising steps raised) db = (.error (raised.settle context), db') ∧
      apply (committed steps) db.ledger = .ok db'.ledger := by
  have hwork : raising steps raised ⟨db, db.ledger⟩ = (.error raised, s) := bind_of_ok h
  obtain ⟨db', hscope, hledger⟩ := scope_of_error context hwork
  exact ⟨db', hscope, hledger ▸ apply_committed h⟩

/-- An error of one of its steps ends a block there. -/
theorem scope_of_step (context : Option Context) (raised : Raised)
    (h : run steps ⟨db, db.ledger⟩ = (.error e, s)) :
    ∃ db' done step rest, steps = done ++ step :: rest ∧
      Database.scope context (raising steps raised) db = (.error (e.settle context), db') ∧
      apply (committed done) db.ledger = .ok db'.ledger := by
  have hwork : raising steps raised ⟨db, db.ledger⟩ = (.error e, s) := bind_of_error h
  obtain ⟨db', hscope, hledger⟩ := scope_of_error context hwork
  obtain ⟨done, step, rest, u, hsteps, hdone, -, hsame⟩ := run_of_error h
  refine ⟨db', done, step, rest, hsteps, hscope, ?_⟩
  rw [hledger, hsame]
  exact apply_committed hdone

end Block

namespace Raised

/-- The operation that an error of some classes is blamed on when none is named: that of the most specific. -/
def genericOperation (classes : List StorageClass) : String :=
  if .integrity ∈ classes then "commit"
  else if .operational ∈ classes then "execute"
  else if .driver ∈ classes then "query"
  else "unknown"

/-- The operation that an error of some classes is blamed on in a context. -/
def blamedOperation (classes : List StorageClass) (context : Option Context) : String :=
  let named := (context.bind Context.operation).getD ""
  if named ≠ "" then named else genericOperation classes

/-- The failure with which a storage error of some classes leaves a scope. -/
structure Maps (classes : List StorageClass) (context : Option Context) (f : Failure) : Prop where
  blames : ∃ problem, f.cause = .storage (blamedOperation classes context) problem
  status : f.cause.status = 503
  /-- A context that names an operation is the context of the failure. -/
  kept : ∀ c, context = some c → c.operation.getD "" ≠ "" → f.context = c
  /-- One that names none gets the name, and nothing else. -/
  filled : ∀ c, context = some c → c.operation.getD "" = "" →
    f.context = { c with operation := some (genericOperation classes) }
  fresh : context = none → f.context = { operation := some (genericOperation classes) }

/-- A storage error is caught as one of its most specific class. -/
theorem caught?_of_general {classes : List StorageClass} (h : .general ∈ classes) :
    ∃ kind, StorageClass.caught? classes = some kind ∧ kind.operation = genericOperation classes := by
  unfold StorageClass.caught? genericOperation
  by_cases hintegrity : StorageClass.integrity ∈ classes
  · exact ⟨.integrity, by simp [hintegrity], by rw [if_pos hintegrity]; rfl⟩
  by_cases hoperational : StorageClass.operational ∈ classes
  · exact ⟨.operational, by simp [hintegrity, hoperational],
      by rw [if_neg hintegrity, if_pos hoperational]; rfl⟩
  by_cases hdriver : StorageClass.driver ∈ classes
  · exact ⟨.driver, by simp [hintegrity, hoperational, hdriver],
      by rw [if_neg hintegrity, if_neg hoperational, if_pos hdriver]; rfl⟩
  · exact ⟨.general, by simp [hintegrity, hoperational, hdriver, h],
      by rw [if_neg hintegrity, if_neg hoperational, if_neg hdriver]; rfl⟩

theorem namedOperation_eq (c : Context) (operation : String) :
    Failure.namedOperation c operation =
      if c.operation.getD "" ≠ "" then c.operation.getD "" else operation := by
  unfold Failure.namedOperation
  cases c.operation with
  | none => simp
  | some named => by_cases hnamed : named = "" <;> simp [hnamed]

theorem maps_settle {classes : List StorageClass} {kind : StorageClass}
    (hkind : kind.operation = genericOperation classes) (refusal : Refusal) (context : Option Context) :
    ∃ f, settle context (.storage ⟨kind, refusal⟩) = .failure f ∧ Maps classes context f := by
  refine ⟨_, rfl, ?_⟩
  simp only [hkind, namedOperation_eq, Failure.storage]
  refine ⟨⟨_, congrArg (Cause.storage · _) ?_⟩, rfl, ?_, ?_, ?_⟩
  · cases context <;> simp [blamedOperation]
  · rintro c rfl hnamed
    obtain ⟨noticed, user, task, _ | named, debug⟩ := c
    · exact absurd rfl hnamed
    · simpa using fun hempty => absurd hempty hnamed
  · rintro c rfl hunnamed
    simp [hunnamed]
  · rintro rfl
    simp

/-- A storage error leaves a scope as a failure, whatever the classes that it belongs to. -/
theorem maps_ofClasses {classes : List StorageClass} (h : .general ∈ classes) (refusal : Refusal)
    (other : Fault) (context : Option Context) :
    ∃ f, (ofClasses classes refusal other).settle context = .failure f ∧ Maps classes context f := by
  obtain ⟨kind, hcaught, hkind⟩ := caught?_of_general h
  rw [ofClasses, hcaught]
  exact maps_settle hkind refusal context

end Raised

namespace Block

/-- Scopes undo and map. Every list of changes that an undisturbed database accepts is carried out, commits
    among them or not. An error that is raised after changes without a commit leaves the ledger as it was
    before the block; after a commit just the changes before the last one have been made. An error of a step
    ends the block at that step. A storage error leaves the scope as a failure in the context that was given,
    named by it or else by the most specific of its classes; any other error leaves as it is. -/
theorem scope_undoes_and_maps :
    (∀ (db : Database) steps l, db.Undisturbed → apply (edits steps) db.ledger = .ok l →
      ∃ s, run steps ⟨db, db.ledger⟩ = (.ok (), s)) ∧
    (∀ (db : Database) (changes : List Edit) s context raised,
      run (changes.map .edit) ⟨db, db.ledger⟩ = (.ok (), s) →
      ∃ db', Database.scope context (raising (changes.map .edit) raised) db =
          (.error (raised.settle context), db') ∧
        db'.ledger = db.ledger) ∧
    (∀ (db : Database) first (changes : List Edit) s context raised,
      run (first ++ .commit :: changes.map .edit) ⟨db, db.ledger⟩ = (.ok (), s) →
      ∃ db', Database.scope context (raising (first ++ .commit :: changes.map .edit) raised) db =
          (.error (raised.settle context), db') ∧
        apply (edits first) db.ledger = .ok db'.ledger) ∧
    (∀ (db : Database) steps e s context raised, run steps ⟨db, db.ledger⟩ = (.error e, s) →
      ∃ db' done step rest, steps = done ++ step :: rest ∧
        Database.scope context (raising steps raised) db = (.error (e.settle context), db') ∧
        apply (committed done) db.ledger = .ok db'.ledger) ∧
    (∀ classes refusal other context, .general ∈ classes →
      ∃ f, (Raised.ofClasses classes refusal other).settle context = .failure f ∧
        Raised.Maps classes context f) ∧
    ∀ refusal other context, (Raised.ofClasses [] refusal other).settle context = other := by
  refine ⟨fun db steps l hcalm h => @run_of_accepted steps ⟨db, db.ledger⟩ hcalm l h,
    fun db changes s context raised h => ?_, fun db first changes s context raised h => ?_,
    fun db steps e s context raised => scope_of_step context raised,
    fun classes refusal other context h => Raised.maps_ofClasses h refusal other context,
    fun refusal other context => rfl⟩
  · obtain ⟨db', hscope, hleft⟩ := scope_of_raised context raised h
    rw [committed_of_no_commit (any_isCommit_edits changes), apply_nil] at hleft
    exact ⟨db', hscope, (Except.ok.inj hleft).symm⟩
  · obtain ⟨db', hscope, hleft⟩ := scope_of_raised context raised h
    rw [committed_append_commit (any_isCommit_edits changes)] at hleft
    exact ⟨db', hscope, hleft⟩

/-- The insertion of an open interval. -/
def insertion (id : Uuid) (task : Int) : Edit := fun l =>
  (Ledger.insertRow false id ⟨some (.int 7), some (.int task)⟩ (tick 0) none l).map
    Prod.snd

/-- An operational error after a commit and another insertion: the committed interval stays, the other one is
    undone, and the failure is that of an execution for the user of the context. -/
theorem scope_keeps_committed : ∃ db' f,
    Database.scope (some { user := some (.int 7) })
        (raising [.edit (insertion (.ofNat 0xa1) 42), .commit, .edit (insertion (.ofNat 0xa2) 43)]
          (Raised.ofClasses [.general, .driver, .operational] ⟨none, none⟩ .cancelled)) {} =
      (.error (.failure f), db') ∧
    db'.ledger.rows = some [⟨.ofNat 0xa1, .int 7, .int 42, beat 0, none⟩] ∧
    f.context = { user := some (.int 7), operation := some "execute" } := by
  obtain ⟨hcarried, -, hprefix, -, hmapped, -⟩ := scope_undoes_and_maps
  obtain ⟨s, hrun⟩ := hcarried {}
    ([.edit (insertion (.ofNat 0xa1) 42)] ++ .commit :: [insertion (.ofNat 0xa2) 43].map .edit) _
    (fun _ _ => rfl) rfl
  obtain ⟨db', hscope, hleft⟩ := hprefix {} _ _ s (some { user := some (.int 7) })
    (Raised.ofClasses [.general, .driver, .operational] ⟨none, none⟩ .cancelled) hrun
  obtain ⟨f, hsettle, hmaps⟩ := hmapped [.general, .driver, .operational] ⟨none, none⟩ .cancelled
    (some { user := some (.int 7) }) (by decide)
  rw [hsettle] at hscope
  refine ⟨db', f, hscope, ?_, hmaps.filled _ rfl rfl⟩
  rw [← Except.ok.inj hleft]
  rfl

end Block
end Worklog
