import Worklog.Proofs.Database.History
import Worklog.Proofs.Database.Rejection
import Worklog.Proofs.Http.Asked

namespace Worklog

namespace Database

/-- All that goes wrong from outside are storage errors. -/
def OnlyStorage (db : Database) : Prop := ∀ e, db.Raises e → ∃ x, e = .storage x

/-- The tables as starts and stops leave them: consistent rows under their index, with references that are
    not enforced. -/
structure Sound (db : Database) (rows : List Row) : Prop where
  stored : db.ledger.rows = some rows
  openUnique : db.ledger.openUnique = true
  unreferenced : db.ledger.foreignKeys = false
  consistent : Consistent rows

theorem OnlyStorage.alike {db db' : Database} (h : db.OnlyStorage) (hlike : db.Alike db') :
    db'.OnlyStorage := fun e he => h e ((hlike.raises_iff e).mp he)

theorem OnlyStorage.refused {α : Type} {db : Database} (h : db.OnlyStorage)
    {answer : Bool → Except Rejection α} {e : Raised} (he : db.Refuses answer e) :
    (∃ x, e = .storage x) ∨ ∃ prepared, answer prepared = .error .tooWide ∧ e = .fault .tooWide := by
  obtain hraised | ⟨prepared, x, hx, rfl⟩ := he
  · exact .inl (h e hraised)
  · obtain hstorage | ⟨rfl, hwide⟩ := x.raised_cases
    · exact .inl hstorage
    · exact .inr ⟨prepared, hx, hwide⟩

end Database

namespace Session

variable {db db' : Database} {rows : List Row} {fresh : Uuid} {now : Moment} {key : KeyRef}

/-- The ends of a call that its contract names. -/
inductive Named (refusal : Fault) : Except Fault Interval → Prop where
  | interval (i : Interval) : Named refusal (.ok i)
  | refused : Named refusal (.error refusal)
  | storage (operation : String) (problem : StorageProblem) (context : Context) :
      Named refusal (.error (.failure ⟨.storage operation problem, context⟩))

theorem not_named_tooWide {refusal : Fault} (h : refusal ≠ .tooWide) :
    ¬ Named refusal (.error .tooWide) := by
  intro hnamed
  cases hnamed with
  | refused => exact h rfl

/-- A storage error leaves a step of a call as a storage failure. -/
theorem named_of_settle (refusal : Fault) (key : KeyRef) (context : Option Context) (e : StorageError) :
    Named refusal (.error ((Raised.settle context (.storage e)).withKey key.user key.task)) :=
  .storage _ _ _

/-- A start ends as its contract says, unless its key is too wide. -/
theorem start_named (hstorage : db.OnlyStorage) :
    Named (alreadyStarted key) (start Database.intervals fresh now key db).1 ∨
      (start Database.intervals fresh now key db).1 = .error .tooWide ∧
        Ledger.bindKey key = .error .tooWide := by
  rcases hstart : start Database.intervals fresh now key db with ⟨r, db'⟩
  obtain ⟨begun, db₁, hbegin, _, rfl⟩ := start_cases hstart
  obtain ⟨_, ⟨_, row, _, rfl⟩ | ⟨_, e, rfl, he⟩⟩ := Primitive.beginInterval_cases hbegin
  · exact .inl (.interval _)
  · obtain ⟨x, rfl⟩ | ⟨prepared, hinsert, rfl⟩ := hstorage.refused he
    · refine .inl ?_
      unfold Primitive.beginAnswer
      dsimp only
      split
      · exact .refused
      · exact named_of_settle _ key _ x
    · exact .inr ⟨rfl, Ledger.bindKey_of_insertRow hinsert⟩

/-- The first step of a stop finds an interval or none, fails in its storage, or has a key that is too
    wide. -/
theorem find_named (hsound : db.Sound rows) (hstorage : db.OnlyStorage) (key : KeyRef) (refusal : Fault) :
    (∃ found db', find Database.intervals key db = (.ok found, db') ∧ db.Alike db') ∨
      ∃ f db', find Database.intervals key db = (.error f, db') ∧
        (Named refusal (.error f) ∨ f = .tooWide ∧ Ledger.bindKey key = .error .tooWide) := by
  rw [find_eq]
  rcases hopen : Primitive.openInterval key db with ⟨r, db'⟩
  obtain ⟨hlike, ⟨_, opened, hopened, rfl⟩ | ⟨e, rfl, he⟩⟩ := Primitive.openInterval_cases hopen
  · obtain ⟨rows', key', hrows, rfl⟩ := Ledger.openRows_eq_ok hopened
    obtain rfl := Option.some.inj (hsound.stored.symm.trans hrows)
    refine .inl ?_
    obtain hnone | ⟨row, _, _, hone⟩ := hsound.consistent.filter_open key'
    · exact ⟨none, db', by rw [hnone]; rfl, hlike⟩
    · exact ⟨some row.interval, db', by rw [hone]; rfl, hlike⟩
  · refine .inr ⟨_, db', rfl, ?_⟩
    obtain ⟨x, rfl⟩ | ⟨prepared, hread, rfl⟩ := hstorage.refused he
    · exact .inl (named_of_settle refusal key _ x)
    · exact .inr ⟨rfl, Ledger.bindKey_of_openRows hread⟩

theorem finish_named (hstorage : db.OnlyStorage) (found : Option Interval) :
    Named (notStarted key) (finish Database.intervals key found now db).1 := by
  rcases hfinish : finish Database.intervals key found now db with ⟨r, db'⟩
  cases found with
  | none =>
    obtain ⟨_, hrefuse, _⟩ := refuseStop_eq key now db
    cases hrefuse.symm.trans hfinish
    exact .refused
  | some found =>
    obtain ⟨closed, db₁, hclose, _, rfl⟩ := finish_cases hfinish
    obtain ⟨_, ⟨_, row?, _, _, _, rfl⟩ | ⟨_, ⟨_, _, rfl⟩ | ⟨e, rfl, he⟩⟩⟩ :=
      Primitive.closeInterval_cases hclose
    · cases row? with
      | none => exact .refused
      | some row => exact .interval _
    · exact .refused
    · obtain ⟨x, rfl⟩ | ⟨_, hwide, _⟩ := hstorage.refused he
      · exact named_of_settle _ key _ x
      · exact absurd hwide (Ledger.closeRow_ne_tooWide _ _ _)

/-- A stop ends as its contract says, unless its key is too wide. -/
theorem stop_named (hsound : db.Sound rows) (hstorage : db.OnlyStorage) :
    Named (notStarted key) (stop Database.intervals now key db).1 ∨
      (stop Database.intervals now key db).1 = .error .tooWide ∧
        Ledger.bindKey key = .error .tooWide := by
  obtain ⟨found, u, hfind, hlike⟩ | ⟨f, u, hfind, hnamed⟩ :=
    find_named hsound hstorage key (notStarted key)
  · refine .inl ?_
    rw [stop, Run.bind_of_ok hfind]
    exact finish_named (hstorage.alike hlike) found
  · rw [stop, Run.bind_of_error hfind]
    obtain hnamed | ⟨rfl, hwide⟩ := hnamed
    · exact .inl hnamed
    · exact .inr ⟨rfl, hwide⟩

/-- Undisturbed, a start on a key that is too wide fails if its time can be stored. -/
theorem start_of_tooWide (hsound : db.Sound rows) (hcalm : db.Undisturbed)
    (hwide : Ledger.bindKey key = .error .tooWide) (hnow : now.Storable) :
    (start Database.intervals fresh now key db).1 = .error .tooWide := by
  have hreject (prepared : Bool) :
      Ledger.insertRow prepared fresh key now none db.ledger = .error .tooWide := by
    obtain ⟨i, hi⟩ := Instant.storable_iff.mp hnow
    have htables : db.ledger.insertTables = .ok (rows, []) := by
      simp only [Ledger.insertTables, Ledger.rowTable_eq_ok_iff.mpr hsound.stored, Ledger.referenced,
        hsound.unreferenced]
      rfl
    simp only [Ledger.insertRow, Ledger.bindTime_eq_ok_iff.mpr hi, Ledger.prepare_of_values htables hwide]
    rfl
  rcases hstart : start Database.intervals fresh now key db with ⟨r, db'⟩
  obtain ⟨begun, db₁, hbegin, _, rfl⟩ := start_cases hstart
  obtain ⟨_, ⟨prepared, _, hinsert, _⟩ | ⟨_, e, rfl, hraised | ⟨prepared, x, hx, rfl⟩⟩⟩ :=
    Primitive.beginInterval_cases hbegin
  · cases (hreject prepared).symm.trans hinsert
  · exact absurd hraised (hcalm.not_raises e)
  · cases (hreject prepared).symm.trans hx
    rfl

/-- A time that cannot be stored is a storage failure, before the key is looked at. -/
theorem start_of_unstorable (hcalm : db.Undisturbed) (hnow : ¬ now.Storable) :
    (start Database.intervals fresh now key db).1 ≠ .error .tooWide := by
  obtain ⟨fault, hfault⟩ := Ledger.bindTime_of_unstorable hnow
  have hreject (prepared : Bool) :
      Ledger.insertRow prepared fresh key now none db.ledger = .error (.time fault) := by
    simp only [Ledger.insertRow, hfault]
    rfl
  rcases hstart : start Database.intervals fresh now key db with ⟨r, db'⟩
  obtain ⟨begun, db₁, hbegin, _, rfl⟩ := start_cases hstart
  obtain ⟨_, ⟨prepared, _, hinsert, _⟩ | ⟨_, e, rfl, hraised | ⟨prepared, x, hx, rfl⟩⟩⟩ :=
    Primitive.beginInterval_cases hbegin
  · cases (hreject prepared).symm.trans hinsert
  · exact absurd hraised (hcalm.not_raises e)
  · cases (hreject prepared).symm.trans hx
    cases fault <;> rintro ⟨⟩

/-- Undisturbed, a stop on a key that is too wide fails. -/
theorem stop_of_tooWide (hsound : db.Sound rows) (hcalm : db.Undisturbed)
    (hwide : Ledger.bindKey key = .error .tooWide) :
    (stop Database.intervals now key db).1 = .error .tooWide := by
  have hreject (prepared : Bool) : Ledger.openRows prepared key db.ledger = .error .tooWide := by
    have htable := Ledger.rowTable_eq_ok_iff.mpr hsound.stored
    simp only [Ledger.openRows, Ledger.prepare_of_values htable hwide]
    rfl
  have hfind : (find Database.intervals key db).1 = .error .tooWide := by
    rw [find_eq]
    rcases hopen : Primitive.openInterval key db with ⟨r, db'⟩
    obtain ⟨_, ⟨prepared, _, hopened, _⟩ | ⟨e, rfl, hraised | ⟨prepared, x, hx, rfl⟩⟩⟩ :=
      Primitive.openInterval_cases hopen
    · cases (hreject prepared).symm.trans hopened
    · exact absurd hraised (hcalm.not_raises e)
    · cases (hreject prepared).symm.trans hx
      rfl
  rcases hrun : find Database.intervals key db with ⟨r, u⟩
  rw [hrun] at hfind
  subst hfind
  rw [stop, Run.bind_of_error hrun]

end Session

namespace Http

/-- The statuses of a call that ends with an interval or in one of the named ways. -/
def Named (done : Int) (status : Int) : Prop := status = done ∨ status = 409 ∨ status = 503

instance (done status : Int) : Decidable (Named done status) := inferInstanceAs (Decidable (_ ∨ _ ∨ _))

theorem map_run {ε σ α β : Type} (x : Run ε σ α) (g : α → β) (s : σ) :
    ((do return g (← x) : Run ε σ β) s).1 = (x s).1.map g := by
  rcases hx : x s with ⟨_ | a, t⟩
  · rw [Run.bind_of_error hx]
    rfl
  · rw [Run.bind_of_ok hx]
    rfl

/-- The status of a response tells whether its call ended in a named way. -/
theorem status_of_end {refusal : Fault} (hrefusal : (Response.ofFault refusal).status = 409)
    {r : Except Fault Interval} (h : Session.Named refusal r ∨ r = .error .tooWide) {done : Int}
    (hdone : Named done done ∧ done ≠ 500) (body : Interval → Json) :
    let status := (Response.ofEnd (r.map fun i => .ofJson done (body i))).status
    (Session.Named refusal r → Named done status) ∧ (status = 500 ↔ r = .error .tooWide) := by
  obtain ⟨hdone, hne⟩ := hdone
  obtain hnamed | rfl := h
  · cases hnamed with
    | interval i => exact ⟨fun _ => hdone, iff_of_false hne (by rintro ⟨⟩)⟩
    | refused =>
      have hstatus : (Response.ofEnd (Except.map (fun i : Interval => Response.ofJson done (body i))
          (.error refusal))).status = 409 := hrefusal
      refine ⟨fun _ => .inr (.inl hstatus), iff_of_false (by omega) ?_⟩
      rintro ⟨⟩
      exact absurd hrefusal (by decide)
    | storage operation problem context =>
      have hstatus : (Response.ofEnd (Except.map (fun i : Interval => Response.ofJson done (body i))
          (.error (.failure ⟨.storage operation problem, context⟩)))).status = 503 := rfl
      exact ⟨fun _ => .inr (.inr hstatus), iff_of_false (by omega) (by rintro ⟨⟩)⟩
  · have hne : refusal ≠ .tooWide := by
      rintro rfl
      exact absurd hrefusal (by decide)
    exact ⟨fun hnamed => absurd hnamed (Session.not_named_tooWide hne), iff_of_true rfl rfl⟩

namespace Service

open Session

/-- Starts and stops on integers of any size end as their contract says, with one exception: the database
    cannot take over an integer outside 64 bits. Undisturbed, that is what every stop on such a key comes to,
    and every start whose time can be stored. Over the wire it is the only end that is answered with the
    status of an unforeseen fault. -/
theorem start_stop_ends (s : Service) (hopened : s.opened = true) {rows : List Row}
    (hsound : s.database.Sound rows) (hstorage : s.database.OnlyStorage) (fresh : Uuid) (user task : Int) :
    let key : Key := ⟨.int user, .int task⟩
    let started := (start Database.intervals fresh s.clock key.ref s.database).1
    let stopped := (stop Database.intervals s.clock key.ref s.database).1
    (Session.Named (alreadyStarted key.ref) started ∨ started = .error .tooWide ∧ ¬ key.ref.fits = true) ∧
    (Session.Named (notStarted key.ref) stopped ∨ stopped = .error .tooWide ∧ ¬ key.ref.fits = true) ∧
    (s.database.Undisturbed →
      (started = .error .tooWide ↔ ¬ key.ref.fits = true ∧ s.clock.Storable) ∧
      (stopped = .error .tooWide ↔ ¬ key.ref.fits = true)) ∧
    ∀ r : Request,
      (r.asks = some (.start key) →
        (Session.Named (alreadyStarted key.ref) started → Http.Named 201 (s.answer fresh r).1.status) ∧
        ((s.answer fresh r).1.status = 500 ↔ started = .error .tooWide)) ∧
      (r.asks = some (.stop key) →
        (Session.Named (notStarted key.ref) stopped → Http.Named 200 (s.answer fresh r).1.status) ∧
        ((s.answer fresh r).1.status = 500 ↔ stopped = .error .tooWide)) := by
  intro key started stopped
  have hwide : Ledger.bindKey key.ref = .error .tooWide ↔ ¬ key.ref.fits = true :=
    Ledger.bindKey_tooWide_iff user task
  have hstarted : Session.Named (alreadyStarted key.ref) started ∨
      started = .error .tooWide ∧ ¬ key.ref.fits = true := by
    rw [← hwide]
    exact start_named hstorage
  have hstopped : Session.Named (notStarted key.ref) stopped ∨
      stopped = .error .tooWide ∧ ¬ key.ref.fits = true := by
    rw [← hwide]
    exact stop_named hsound hstorage
  have hfits (refusal : Fault) (hrefusal : refusal ≠ .tooWide) {r : Except Fault Interval}
      (h : Session.Named refusal r ∨ r = .error .tooWide ∧ ¬ key.ref.fits = true)
      (hr : r = .error .tooWide) : ¬ key.ref.fits = true := by
    subst hr
    exact (h.resolve_left (not_named_tooWide hrefusal)).2
  refine ⟨hstarted, hstopped, fun hcalm => ⟨⟨fun h => ?_, fun ⟨hnot, hnow⟩ => ?_⟩,
    ⟨fun h => ?_, fun hnot => ?_⟩⟩, fun r => ⟨fun hasks => ?_, fun hasks => ?_⟩⟩
  · refine ⟨hfits _ (by rintro ⟨⟩) hstarted h, Classical.byContradiction fun hnow => ?_⟩
    exact start_of_unstorable hcalm hnow h
  · exact start_of_tooWide hsound hcalm (hwide.mpr hnot) hnow
  · exact hfits _ (by rintro ⟨⟩) hstopped h
  · exact stop_of_tooWide hsound hcalm (hwide.mpr hnot)
  · rw [(answer_of_asks hasks hopened).1, Call.run, map_run]
    exact status_of_end rfl (hstarted.imp_right And.left) (by decide) Body.interval
  · rw [(answer_of_asks hasks hopened).1, Call.run, map_run]
    exact status_of_end rfl (hstopped.imp_right And.left) (by decide) Body.interval

/-- The start of a user whose number is the first beyond 64 bits, asked for over the wire. -/
theorem wide_start_unforeseen :
    let s : Service := { clock := ⟨0, some .utc, by decide⟩ }
    let r : Request :=
      { method := "POST", target := ⟨"/api/v1/users/9223372036854775808/tasks/1/start".toList, []⟩ }
    s.opened = true ∧ s.database.Sound [] ∧ s.database.OnlyStorage ∧ s.database.Undisturbed ∧
      (s.answer (.ofNat 0xa1) r).1.status = 500 := by
  intro s r
  have hsound : s.database.Sound [] := ⟨rfl, rfl, rfl, .nil⟩
  have hcalm : s.database.Undisturbed := fun _ _ => rfl
  have hstorage : s.database.OnlyStorage := fun e he => absurd he (hcalm.not_raises e)
  have hasks : r.asks = some (.start ⟨.int 9223372036854775808, .int 1⟩) := by rfl
  obtain ⟨_, _, hexact, hwire⟩ :=
    start_stop_ends s rfl hsound hstorage (.ofNat 0xa1) 9223372036854775808 1
  have hwide := (hexact hcalm).1.mpr ⟨by decide, by decide⟩
  exact ⟨rfl, hsound, hstorage, hcalm, (((hwire r).1 hasks).2).mpr hwide⟩

/-- Neither a start nor a stop of that user ends in a way that the contract names. -/
theorem wide_calls_unnamed :
    let key : Key := ⟨.int 9223372036854775808, .int 1⟩
    let now : Moment := ⟨0, some .utc, by decide⟩
    let started := (start Database.intervals (.ofNat 0xa1) now key.ref {}).1
    let stopped := (stop Database.intervals now key.ref {}).1
    started = .error .tooWide ∧ ¬ Session.Named (alreadyStarted key.ref) started ∧
      stopped = .error .tooWide ∧ ¬ Session.Named (notStarted key.ref) stopped := by
  intro key now started stopped
  have hstarted : started = .error .tooWide := rfl
  have hstopped : stopped = .error .tooWide := rfl
  rw [hstarted, hstopped]
  exact ⟨rfl, not_named_tooWide (by rintro ⟨⟩), rfl, not_named_tooWide (by rintro ⟨⟩)⟩

end Service
end Http
end Worklog
