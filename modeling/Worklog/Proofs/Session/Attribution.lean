import Worklog.Proofs.Database.Evaluate
import Worklog.Proofs.Schedule.System
import Worklog.Proofs.Session.Calls
import Worklog.Session.Scenario

namespace Worklog

open Run

namespace Session

/-- The failure with which a storage error leaves a start or a stop. -/
def blamed (p : PrimitiveName) (key : KeyRef) (debug : Option Json) (e : StorageError) : Failure :=
  ⟨.storage p.text e.kind.problem, { user := key.user, task := key.task, operation := some p.text, debug }⟩

/-- What a call makes of the failure of a step: the context keeps what it says, and a storage failure is
    completed by the key. -/
structure Completes (key : KeyRef) (f f' : Failure) : Prop where
  cause : f'.cause = f.cause
  noticed : f'.context.noticed = f.context.noticed
  operation : f'.context.operation = f.context.operation
  debug : f'.context.debug = f.context.debug
  user_kept : ∀ user, f.context.user = some user → f'.context.user = some user
  task_kept : ∀ task, f.context.task = some task → f'.context.task = some task
  filled : ∀ operation problem, f.cause = .storage operation problem →
    (f.context.user = none → f'.context.user = key.user) ∧
      (f.context.task = none → f'.context.task = key.task)

theorem completes_withKey (key : KeyRef) (f : Failure) : Completes key f (f.withKey key.user key.task) := by
  unfold Failure.withKey
  split
  · exact ⟨rfl, rfl, rfl, rfl, fun user h => by simp [h], fun task h => by simp [h],
      fun _ _ _ => ⟨fun h => by simp [h], fun h => by simp [h]⟩⟩
  · next hcause =>
    exact ⟨rfl, rfl, rfl, rfl, fun _ h => h, fun _ h => h, fun operation problem h => absurd h (hcause _ _)⟩

/-- A call whose step fails in the store fails with what the step reported, completed by the key. -/
theorem keyed_bind_of_failure {σ α β : Type} (key : KeyRef) {x : Run Fault σ α} {k : α → Run Fault σ β}
    {f : Failure} {s s' : σ} (h : x s = (.error (.failure f), s')) :
    ∃ f', (keyed key x >>= k) s = (.error (.failure f'), s') ∧ Completes key f f' := by
  have hkeyed : keyed key x s = (.error (.failure (f.withKey key.user key.task)), s') := by
    rw [keyed, Run.mapError, h]
    rfl
  exact ⟨_, bind_of_error hkeyed, completes_withKey key f⟩

section Database

variable {key : KeyRef} {db : Database} {e : StorageError} {now : Moment} {found : Interval}

/-- A storage error that leaves the context of a primitive gets what the context lacks of the key. -/
theorem withKey_settle {p : PrimitiveName} {c : Context} (hoperation : c.operation = some p.text)
    (hnoticed : c.noticed = none) (huser : c.user.or key.user = key.user)
    (htask : c.task.or key.task = key.task) :
    (Raised.settle c (.storage e)).withKey key.user key.task = .failure (blamed p key c.debug e) := by
  cases p <;> simp [Raised.settle, Fault.withKey, Failure.withKey, Failure.storage, Failure.namedOperation,
    blamed, PrimitiveName.text, hoperation, hnoticed, huser, htask]

theorem withKey_settle_key (p : PrimitiveName) (key : KeyRef) (e : StorageError) :
    (Raised.settle (Primitive.keyContext p.text key) (.storage e)).withKey key.user key.task =
      .failure (blamed p key none e) :=
  withKey_settle rfl rfl Option.or_self Option.or_self

theorem start_of_storage {fresh : Uuid} (htried : db.tryInsert fresh key now = .error (.storage e))
    (hother : ¬ (e.kind = .integrity ∧ e.refusal.blamesOpenIndex = true)) :
    ∃ db', start Database.intervals fresh now key db =
      (.error (.failure (blamed .beginInterval key none e)), db') := by
  rcases hstart : start Database.intervals fresh now key db with ⟨answer, db'⟩
  obtain ⟨begun, db₁, hbegin, -, rfl⟩ := start_cases hstart
  refine ⟨db', ?_⟩
  obtain ⟨e', htried', rfl, -⟩ | ⟨row, hdone, -⟩ := Primitive.beginInterval_eq hbegin
  · cases htried.symm.trans htried'
    rw [Primitive.beginAnswer, if_neg hother, startAnswer]
    exact congrArg (fun f => (Except.error f, db')) (withKey_settle_key .beginInterval key e)
  · cases htried.symm.trans hdone

theorem stop_of_storage_find (htried : db.tryOpen key = .error (.storage e)) (now : Moment) :
    ∃ db', stop Database.intervals now key db =
      (.error (.failure (blamed .openInterval key none e)), db') := by
  rcases hopen : Primitive.openInterval key db with ⟨answer, db'⟩
  obtain ⟨hanswer, -⟩ := Primitive.openInterval_eq hopen
  rw [htried] at hanswer
  cases hanswer
  have hfind : find Database.intervals key db =
      (.error (.failure (blamed .openInterval key none e)), db') := by
    rw [find_eq, hopen]
    exact congrArg (fun f => (Except.error f, db')) (withKey_settle_key .openInterval key e)
  exact ⟨db', bind_of_error hfind⟩

theorem finish_of_storage (htried : db.tryClose found.id now = .error (.storage e)) :
    ∃ db', finish Database.intervals key (some found) now db =
      (.error (.failure (blamed .closeInterval key
        (some (.obj [("interval_id", .str found.id.text)])) e)), db') := by
  rcases hfinish : finish Database.intervals key (some found) now db with ⟨answer, db'⟩
  obtain ⟨closed, db₁, hclose, -, rfl⟩ := finish_cases hfinish
  refine ⟨db', ?_⟩
  obtain ⟨e', htried', rfl, -⟩ | ⟨row?, hdone, -⟩ := Primitive.closeInterval_eq hclose
  · cases htried.symm.trans htried'
    have hsettle := @withKey_settle key e .closeInterval (Primitive.closeContext found.id) rfl rfl rfl rfl
    exact congrArg (fun f => (Except.error f, db')) hsettle
  · cases htried.symm.trans hdone

end Database

/-- Storage failures name the primitive that failed and the key of the call. A storage error that ends
    the insertion of a start, other than the conflict with an open interval, the look for the open
    interval or the ending of the interval that was found leaves the call as the failure that blames just
    that; between the two steps of a stop the database may have changed. On any store, a call passes the
    failures of its steps on with all that they say, and completes storage failures by its key. -/
theorem storage_failures_name_operation_and_key :
    (∀ db fresh now key e, db.tryInsert fresh key now = .error (.storage e) →
      ¬ (e.kind = .integrity ∧ e.refusal.blamesOpenIndex = true) →
      ∃ db', start Database.intervals fresh now key db =
        (.error (.failure (blamed .beginInterval key none e)), db')) ∧
    (∀ db now key e, db.tryOpen key = .error (.storage e) →
      ∃ db', stop Database.intervals now key db =
        (.error (.failure (blamed .openInterval key none e)), db')) ∧
    (∀ db db₁ now key found e, find Database.intervals key db = (.ok (some found), db₁) →
      db₁.tryClose found.id now = .error (.storage e) →
      ∃ db', stop Database.intervals now key db =
        (.error (.failure (blamed .closeInterval key
          (some (.obj [("interval_id", .str found.id.text)])) e)), db')) ∧
    (∀ db now key found e, db.tryClose found.id now = .error (.storage e) →
      ∃ db', finish Database.intervals key (some found) now db =
        (.error (.failure (blamed .closeInterval key
          (some (.obj [("interval_id", .str found.id.text)])) e)), db')) ∧
    ∀ (σ : Type) (store : IntervalStore σ) now key f s s',
      (∀ fresh, store.beginInterval fresh key now s = (.error (.failure f), s') →
        ∃ f', start store fresh now key s = (.error (.failure f'), s') ∧ Completes key f f') ∧
      (store.openInterval key s = (.error (.failure f), s') →
        ∃ f', stop store now key s = (.error (.failure f'), s') ∧ Completes key f f') ∧
      ∀ found s₀, find store key s₀ = (.ok (some found), s) →
        store.closeInterval found.id now s = (.error (.failure f), s') →
        ∃ f', stop store now key s₀ = (.error (.failure f'), s') ∧ Completes key f f' := by
  refine ⟨fun db fresh now key e => start_of_storage, fun db now key e h => stop_of_storage_find h now,
    fun db db₁ now key found e hfind htried => ?_, fun db now key found e => finish_of_storage,
    fun σ store now key f s s' => ⟨fun fresh => keyed_bind_of_failure key, keyed_bind_of_failure key,
      fun found s₀ hfind hclose => ?_⟩⟩
  · rw [stop, bind_of_ok hfind]
    exact finish_of_storage htried
  · rw [stop, bind_of_ok hfind]
    exact keyed_bind_of_failure key hclose

/-- An interval that is open. -/
def running : Row := ⟨.ofNat 0xa1, .int 7, .int 42, beat 0, none⟩

/-- A database with one open interval that loses its connection at every commit. -/
def losing : Database where
  ledger := { rows := some [running] }
  disruption := fun _ verb => if verb = .commit then some (.storage ⟨.operational, ⟨none, none⟩⟩) else none

/-- On a database that loses its connection, a start of another task and a stop of the open interval fail in
    the names of their primitives and with their keys; the stop names the interval as well. -/
theorem losing_names_operation_and_key :
    (∃ db', start Database.intervals (.ofNat 0xa2) (tick 5) ⟨some (.int 7), some (.int 43)⟩ losing =
      (.error (.failure ⟨.storage "begin_interval" .connection,
        { user := some (.int 7), task := some (.int 43), operation := some "begin_interval" }⟩), db')) ∧
    ∃ db', stop Database.intervals (tick 5) running.key.ref losing =
      (.error (.failure ⟨.storage "close_interval" .connection,
        { user := some (.int 7), task := some (.int 42), operation := some "close_interval",
          debug := some (.obj [("interval_id", .str running.id.text)]) }⟩), db') := by
  have hinsert : losing.tryInsert (.ofNat 0xa2) ⟨some (.int 7), some (.int 43)⟩ (tick 5) =
      .error (.storage ⟨.operational, ⟨none, none⟩⟩) := rfl
  obtain ⟨db, hfind, hclose⟩ : ∃ db,
      find Database.intervals running.key.ref losing = (.ok (some running.interval), db) ∧
      db.tryClose running.id (tick 5) = .error (.storage ⟨.operational, ⟨none, none⟩⟩) := ⟨_, rfl, rfl⟩
  exact ⟨storage_failures_name_operation_and_key.1 _ _ _ _ _ hinsert (by decide),
    storage_failures_name_operation_and_key.2.2.1 _ _ _ _ _ _ hfind hclose⟩

end Session
end Worklog
