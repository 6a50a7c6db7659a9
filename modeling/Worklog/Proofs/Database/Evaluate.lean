import Worklog.Proofs.Database.Atomic

namespace Worklog

open Run

namespace Database

/-- How an access ends, after `k` others. -/
def hit (db : Database) (k : Nat) (verb : Verb) : Except Raised Unit :=
  (db.disruption (db.accesses + k) verb).elim (.ok ()) .error

/-- The answer of a statement that is asked after `k` other accesses. -/
def reply {α : Type} (db : Database) (k : Nat) (verb : Verb) (answer : Except Rejection α) :
    Except Raised α := do
  db.hit k verb
  answer.mapError Rejection.raised

theorem hit_of_accesses {a b : Database} {n : Nat} (hdisruption : b.disruption = a.disruption)
    (haccesses : b.accesses = a.accesses + n) (k : Nat) (verb : Verb) :
    b.hit k verb = a.hit (n + k) verb := by
  simp only [hit, hdisruption, haccesses, Nat.add_assoc]

variable (db : Database)

/-- The open rows of a key, if they can be read. -/
def tryOpen (key : KeyRef) : Except Raised (List Row) :=
  db.reply 0 .execute (Ledger.openRows (db.prepared.contains (.openRows key.user.isSome key.task.isSome))
    key db.ledger)

/-- The rows of a window, if they can be read. -/
def tryOverlapping (user : Option Ident) (start stop : Moment) : Except Raised (List Row) :=
  db.reply 0 .execute (Ledger.overlappingRows (db.prepared.contains (.overlappingRows user.isSome)) user
    start stop db.ledger)

/-- The insertion of an open interval, as far as it comes: the row, and the ledger with it. -/
def tryInsert (fresh : Uuid) (key : KeyRef) (started : Moment) : Except Raised (Row × Ledger) := do
  let stored ← db.reply 0 .flush (Ledger.insertRow (db.prepared.contains .insertRow) fresh key started
    none db.ledger)
  db.hit 1 .commit
  return stored

/-- The ending of an interval, as far as it comes: the row, if there is one, and the ledger with it. -/
def tryClose (id : Uuid) (stopped : Moment) : Except Raised (Option Row × Ledger) := do
  let (n, l) ← db.reply 0 .execute (Ledger.closeRow id stopped db.ledger)
  if n = 0 then return (none, db.ledger)
  else
    let row? ← db.reply 1 .load (Ledger.findRow id l)
    db.hit 2 .commit
    return (row?, l)

variable {db} {id : Uuid} {stopped : Moment} {l : Ledger}

theorem tryClose_of_error {e : Raised}
    (h : db.reply 0 .execute (Ledger.closeRow id stopped db.ledger) = .error e) :
    db.tryClose id stopped = .error e := by
  rw [tryClose, h]
  rfl

theorem tryClose_of_none (h : db.reply 0 .execute (Ledger.closeRow id stopped db.ledger) = .ok (0, l)) :
    db.tryClose id stopped = .ok (none, db.ledger) := by
  rw [tryClose, h]
  rfl

theorem tryClose_of_changed {n : Nat}
    (h : db.reply 0 .execute (Ledger.closeRow id stopped db.ledger) = .ok (n, l)) (hn : n ≠ 0) :
    db.tryClose id stopped = (do
      let row? ← db.reply 1 .load (Ledger.findRow id l)
      db.hit 2 .commit
      return row?).map (·, l) := by
  rw [tryClose, h]
  refine (if_neg hn).trans ?_
  cases db.reply 1 .load (Ledger.findRow id l) with
  | error e => rfl
  | ok row? => cases db.hit 2 .commit <;> rfl

end Database

namespace Scope

/-- A scope after one access. -/
structure Reached (s t : Scope) : Prop where
  working : t.working = s.working
  ledger : t.database.ledger = s.database.ledger
  disruption : t.database.disruption = s.database.disruption
  accesses : t.database.accesses = s.database.accesses + 1

theorem reached_counted (s : Scope) : s.Reached s.counted := ⟨rfl, rfl, rfl, rfl⟩

theorem Reached.hit {s t : Scope} (h : s.Reached t) (k : Nat) (verb : Verb) :
    t.database.hit k verb = s.database.hit (1 + k) verb :=
  Database.hit_of_accesses h.disruption h.accesses k verb

theorem Reached.reply {α : Type} {s t : Scope} (h : s.Reached t) (k : Nat) (verb : Verb)
    (answer : Except Rejection α) : t.database.reply k verb answer = s.database.reply (1 + k) verb answer := by
  simp only [Database.reply, h.hit]

end Scope

namespace Work

variable {α : Type} {verb : Verb} {q : Query} {s t : Scope}

theorem access_eq : access verb s = (s.database.hit 0 verb, s.counted) := by
  unfold Database.hit
  cases hquiet : s.database.disruption (s.database.accesses + 0) verb with
  | none => exact access_of_quiet hquiet
  | some e => exact access_of_disturbed hquiet

theorem read_eq (verb : Verb) (statement : Ledger → Except Rejection α) (s : Scope) :
    read verb statement s = (s.database.reply 0 verb (statement s.working), s.counted) := by
  unfold Database.reply
  cases hhit : s.database.hit 0 verb with
  | error e =>
    have haccess : access verb s = (.error e, s.counted) := by rw [access_eq, hhit]
    rw [read, bind_of_error haccess]
    rfl
  | ok _ =>
    have haccess : access verb s = (.ok (), s.counted) := by rw [access_eq, hhit]
    rw [read, bind_of_ok haccess]
    rfl

theorem prepare_keeps (q : Query) (r : Except Rejection α) (s : Scope) :
    ∃ u, prepare q r s = (.ok (), u) ∧ u.working = s.working ∧ u.database.ledger = s.database.ledger ∧
      u.database.disruption = s.database.disruption ∧ u.database.accesses = s.database.accesses := by
  unfold prepare
  split <;> exact ⟨_, rfl, rfl, rfl, rfl, rfl⟩

theorem ask_eq (verb : Verb) (q : Query) (statement : Bool → Ledger → Except Rejection α) (s : Scope) :
    ∃ t, s.Reached t ∧
    ask verb q statement s =
      (s.database.reply 0 verb (statement (s.database.prepared.contains q) s.working), t) := by
  unfold Database.reply
  cases hhit : s.database.hit 0 verb with
  | error e =>
    have haccess : access verb s = (.error e, s.counted) := by rw [access_eq, hhit]
    refine ⟨s.counted, s.reached_counted, ?_⟩
    rw [ask, bind_of_error haccess]
    rfl
  | ok _ =>
    have haccess : access verb s = (.ok (), s.counted) := by rw [access_eq, hhit]
    obtain ⟨u, hprepare, hworking, hledger, hdisruption, haccesses⟩ :=
      prepare_keeps q (statement (s.database.prepared.contains q) s.working) s.counted
    refine ⟨u, ⟨hworking, hledger, hdisruption, haccesses⟩, ?_⟩
    rw [ask, bind_of_ok haccess]
    exact bind_of_ok hprepare

/-- A change replaces the working copy if its statement is answered. -/
theorem write_eq {statement : Ledger → Except Rejection (α × Ledger)} {r : Except Raised α}
    (h : write verb statement s = (r, t)) :
    (∃ e, s.database.reply 0 verb (statement s.working) = .error e ∧ r = .error e ∧ s.Reached t) ∨
      ∃ a l, s.database.reply 0 verb (statement s.working) = .ok (a, l) ∧ r = .ok a ∧
        { s with working := l }.Reached t := by
  cases hreply : s.database.reply 0 verb (statement s.working) with
  | error e =>
    have hread : read verb statement s = (.error e, s.counted) := by rw [read_eq, hreply]
    rw [write, bind_of_error hread] at h
    cases h
    exact .inl ⟨e, rfl, rfl, s.reached_counted⟩
  | ok stored =>
    have hread : read verb statement s = (.ok stored, s.counted) := by rw [read_eq, hreply]
    rw [write, bind_of_ok hread] at h
    cases h
    exact .inr ⟨stored.1, stored.2, rfl, rfl, rfl, rfl, rfl, rfl⟩

theorem tell_eq {statement : Bool → Ledger → Except Rejection (α × Ledger)} {r : Except Raised α}
    (h : tell verb q statement s = (r, t)) :
    (∃ e, s.database.reply 0 verb (statement (s.database.prepared.contains q) s.working) = .error e ∧
      r = .error e ∧ s.Reached t) ∨
    ∃ a l, s.database.reply 0 verb (statement (s.database.prepared.contains q) s.working) = .ok (a, l) ∧
      r = .ok a ∧ { s with working := l }.Reached t := by
  obtain ⟨u, hreached, hask⟩ := ask_eq verb q statement s
  cases hreply : s.database.reply 0 verb (statement (s.database.prepared.contains q) s.working) with
  | error e =>
    rw [hreply] at hask
    rw [tell, bind_of_error hask] at h
    cases h
    exact .inl ⟨e, rfl, rfl, hreached⟩
  | ok stored =>
    rw [hreply] at hask
    rw [tell, bind_of_ok hask] at h
    cases h
    exact .inr ⟨stored.1, stored.2, rfl, rfl, rfl, hreached.ledger, hreached.disruption,
      hreached.accesses⟩

/-- A commit at the end of a piece of work. -/
theorem commit_eq {a : α} {r : Except Raised α} (h : (do commit; return a) s = (r, t)) :
    (∃ e, s.database.hit 0 .commit = .error e ∧ r = .error e ∧ t.database.ledger = s.database.ledger) ∨
      s.database.hit 0 .commit = .ok () ∧ r = .ok a ∧ t.database.ledger = s.working := by
  cases hhit : s.database.hit 0 .commit with
  | error e =>
    have haccess : access .commit s = (.error e, s.counted) := by rw [access_eq, hhit]
    have hcommit : commit s = (.error e, s.counted) := bind_of_error haccess
    rw [bind_of_error hcommit] at h
    cases h
    exact .inl ⟨e, rfl, rfl, rfl⟩
  | ok _ =>
    have haccess : access .commit s = (.ok (), s.counted) := by rw [access_eq, hhit]
    have hcommit : commit s = (.ok (), { s.counted with database :=
        { s.counted.database with ledger := s.working } }) := bind_of_ok haccess
    rw [bind_of_ok hcommit] at h
    cases h
    exact .inr ⟨rfl, rfl, rfl⟩

end Work

namespace Primitive

variable {key : KeyRef} {fresh id : Uuid} {db db' : Database}

/-- Looking for an open interval is one access, and answers from the rows that it reads. -/
theorem openInterval_eq {r : Except Fault (Option Interval)} (h : openInterval key db = (r, db')) :
    r = ((db.tryOpen key).mapError (Raised.settle (keyContext "open_interval" key)) >>= openAnswer key) ∧
      db.Alike db' ∧ db'.accesses = db.accesses + 1 := by
  have haccesses : db'.accesses = _ := (congrArg (fun x => x.2.accesses) h).symm.trans
    (Database.scope_leaves _ _ db).2
  obtain ⟨hlike, _⟩ := openInterval_cases h
  obtain ⟨r', s, hwork, _, rfl⟩ := Database.scope_cases h
  rw [hwork] at haccesses
  obtain ⟨t, hreached, hask⟩ := Work.ask_eq .execute (.openRows key.user.isSome key.task.isSome)
    (fun prepared => Ledger.openRows prepared key) ⟨db, db.ledger⟩
  change _ = (db.tryOpen key, t) at hask
  cases hopen : db.tryOpen key with
  | error e =>
    rw [hopen] at hask
    rw [bind_of_error hask] at hwork
    cases hwork
    exact ⟨rfl, hlike, haccesses.trans hreached.accesses⟩
  | ok rows =>
    rw [hopen] at hask
    rw [bind_of_ok hask] at hwork
    have hsingle : single key rows t = ((openAnswer key rows).mapError Raised.fault, t) := by
      rcases rows with _ | ⟨r, _ | ⟨_, _⟩⟩ <;> rfl
    rw [hsingle] at hwork
    cases hwork
    refine ⟨?_, hlike, haccesses.trans hreached.accesses⟩
    rcases rows with _ | ⟨r, _ | ⟨_, _⟩⟩ <;> rfl

theorem intervalsOverlapping_eq (user : Option Ident) (start stop : Moment) (db : Database) :
    (intervalsOverlapping user start stop db).1 =
      ((db.tryOverlapping user start stop).map (List.map Row.interval)).mapError
        (Raised.settle (some { user, operation := some "intervals_overlapping" })) := by
  obtain ⟨t, _, hask⟩ := Work.ask_eq .execute (.overlappingRows user.isSome)
    (fun prepared => Ledger.overlappingRows prepared user start stop) ⟨db, db.ledger⟩
  change _ = (db.tryOverlapping user start stop, t) at hask
  rcases h : intervalsOverlapping user start stop db with ⟨r, db'⟩
  obtain ⟨r', s, hwork, _, rfl⟩ := Database.scope_cases h
  cases hread : db.tryOverlapping user start stop with
  | error e =>
    rw [hread] at hask
    rw [bind_of_error hask] at hwork
    cases hwork
    rfl
  | ok rows =>
    rw [hread] at hask
    rw [bind_of_ok hask] at hwork
    cases hwork
    rfl

theorem insert_eq {started : Moment} {s : Scope} {r : Except Raised Interval}
    (h : insert fresh key started none ⟨db, db.ledger⟩ = (r, s)) :
    (∃ e, db.tryInsert fresh key started = .error e ∧ r = .error e ∧ s.database.ledger = db.ledger) ∨
    ∃ row, db.tryInsert fresh key started = .ok (row, s.database.ledger) ∧
      r = .ok ⟨fresh, key.user.getD row.user, key.task.getD row.task, started, none⟩ := by
  unfold insert at h
  unfold Database.tryInsert
  obtain ⟨row, t, htell, h⟩ | ⟨e, htell, rfl⟩ := bind_eq_iff.mp h
  · obtain ⟨_, _, hr, _⟩ | ⟨a, l, hreply, hr, hreached⟩ := Work.tell_eq htell
    · cases hr
    · cases hr
      change db.reply 0 .flush _ = .ok (row, l) at hreply
      have hcommit := Work.commit_eq h
      rw [hreached.hit, hreached.working] at hcommit
      change (∃ e, db.hit 1 .commit = _ ∧ _) ∨ db.hit 1 .commit = _ ∧ _ at hcommit
      rw [hreply]
      obtain ⟨e, hstruck, rfl, hledger⟩ | ⟨hdone, rfl, hledger⟩ := hcommit
      · refine .inl ⟨e, ?_, rfl, hledger.trans hreached.ledger⟩
        rw [hstruck]
        rfl
      · refine .inr ⟨row, ?_, rfl⟩
        rw [hdone, hledger]
        rfl
  · obtain ⟨e', hreply, hr, hreached⟩ | ⟨_, _, _, hr, _⟩ := Work.tell_eq htell
    · cases hr
      refine .inl ⟨e, ?_, rfl, hreached.ledger⟩
      change db.reply 0 .flush _ = _ at hreply
      rw [hreply]
      rfl
    · cases hr

/-- An interval that is begun is inserted, or its insertion is judged by the error with which it ended. -/
theorem beginInterval_eq {started : Moment} {r : Except Fault Begun}
    (h : beginInterval fresh key started db = (r, db')) :
    (∃ e, db.tryInsert fresh key started = .error e ∧ r = beginAnswer key e ∧ db'.ledger = db.ledger) ∨
    ∃ row, db.tryInsert fresh key started = .ok (row, db'.ledger) ∧
      r = .ok (.interval ⟨fresh, key.user.getD row.user, key.task.getD row.task, started, none⟩) := by
  unfold beginInterval attemptBegin at h
  rw [bind_of_ok (Database.attempt_eq _ db)] at h
  rcases hinsert : insert fresh key started none ⟨db, db.ledger⟩ with ⟨final, s⟩
  rw [hinsert] at h
  obtain ⟨e, htried, rfl, hledger⟩ | ⟨row, htried, rfl⟩ := insert_eq hinsert
  · obtain ⟨db₁, hjudge, hnoted⟩ := judgeBegin_error key e s.database
    rw [hjudge] at h
    cases h
    exact .inl ⟨e, htried, rfl, hnoted.ledger.trans hledger⟩
  · cases h
    exact .inr ⟨row, htried, rfl⟩

/-- The conditional change of an ending. A violation leaves as a failure of its own, in the words with
    which its scope would have ended. -/
theorem closeRow_eq {stopped : Moment} {s t : Scope} {r : Except Raised Nat}
    (h : closeRow id stopped s = (r, t)) :
    (∃ e e', s.database.reply 0 .execute (Ledger.closeRow id stopped s.working) = .error e ∧
      r = .error e' ∧ e'.settle (some (closeContext id)) = e.settle (some (closeContext id)) ∧
      t.database.ledger = s.database.ledger) ∨
    ∃ n l, s.database.reply 0 .execute (Ledger.closeRow id stopped s.working) = .ok (n, l) ∧ r = .ok n ∧
      { s with working := l }.Reached t := by
  unfold closeRow handle at h
  rcases hwrite : Work.write .execute (Ledger.closeRow id stopped) s with ⟨final, u⟩
  rw [hwrite] at h
  obtain ⟨e, hreply, rfl, hreached⟩ | ⟨n, l, hreply, rfl, hreached⟩ := Work.write_eq hwrite
  · refine .inl ⟨e, ?_⟩
    cases e with
    | fault f =>
      cases h
      exact ⟨.fault f, hreply, rfl, rfl, hreached.ledger⟩
    | storage e =>
      by_cases hkind : e.kind = .integrity
      · simp only [hkind, if_true] at h
        cases h
        refine ⟨_, hreply, rfl, ?_, hreached.ledger⟩
        simp [Raised.settle, hkind, Failure.namedOperation, closeContext, StorageClass.problem]
      · simp only [hkind, if_false] at h
        cases h
        exact ⟨.storage e, hreply, rfl, rfl, hreached.ledger⟩
  · cases h
    exact .inr ⟨n, l, hreply, rfl, hreached⟩

/-- What is left of an ending that has changed a row: the row is loaded, and the change is made lasting. -/
theorem load_eq {s t : Scope} {r : Except Raised Closed}
    (h : (do
      let row? ← Work.read .load (Ledger.findRow id)
      Work.commit
      return row?.elim (.notFound id) fun row => .interval row.interval : Work Closed) s = (r, t)) :
    (∃ e, (do
        let row? ← s.database.reply 0 .load (Ledger.findRow id s.working)
        s.database.hit 1 .commit
        return row?) = .error e ∧ r = .error e ∧ t.database.ledger = s.database.ledger) ∨
    ∃ row?, (do
        let row? ← s.database.reply 0 .load (Ledger.findRow id s.working)
        s.database.hit 1 .commit
        return row?) = .ok row? ∧ t.database.ledger = s.working ∧
      r = .ok (row?.elim (.notFound id) fun row => .interval row.interval) := by
  have hload := Work.read_eq .load (Ledger.findRow id) s
  cases hfound : s.database.reply 0 .load (Ledger.findRow id s.working) with
  | error e =>
    rw [hfound] at hload
    rw [bind_of_error hload] at h
    cases h
    exact .inl ⟨e, rfl, rfl, rfl⟩
  | ok row? =>
    rw [hfound] at hload
    rw [bind_of_ok hload] at h
    have hcommit := Work.commit_eq h
    rw [s.reached_counted.hit] at hcommit
    obtain ⟨e, hstruck, rfl, hledger⟩ | ⟨hdone, rfl, hledger⟩ := hcommit
    · refine .inl ⟨e, ?_, rfl, hledger⟩
      rw [hstruck]
      rfl
    · refine .inr ⟨row?, ?_, hledger, rfl⟩
      rw [hdone]
      rfl

/-- An ending answers the row that it has ended, finds none, or fails as one of its accesses or its
    statements did. -/
theorem closeInterval_eq {stopped : Moment} {r : Except Fault Closed}
    (h : closeInterval id stopped db = (r, db')) :
    (∃ e, db.tryClose id stopped = .error e ∧ r = .error (Raised.settle (some (closeContext id)) e) ∧
      db'.ledger = db.ledger) ∨
    ∃ row?, db.tryClose id stopped = .ok (row?, db'.ledger) ∧
      r = .ok (row?.elim (.notFound id) fun row => .interval row.interval) := by
  obtain ⟨r', s, hwork, hnoted, rfl⟩ := Database.scope_cases h
  obtain ⟨n, u, hclose, hwork⟩ | ⟨e, hclose, rfl⟩ := bind_eq_iff.mp hwork
  · obtain ⟨_, _, _, hr, _⟩ | ⟨_, l, hreply, hr, hreached⟩ := closeRow_eq hclose
    · cases hr
    cases hr
    by_cases hnone : n = 0
    · subst hnone
      cases hwork
      have hledger : db'.ledger = db.ledger := hnoted.ledger.trans hreached.ledger
      refine .inr ⟨none, ?_, rfl⟩
      rw [hledger]
      exact Database.tryClose_of_none hreply
    · rw [if_neg hnone] at hwork
      have hload := load_eq hwork
      rw [hreached.reply, hreached.hit, hreached.working] at hload
      rw [Database.tryClose_of_changed hreply hnone]
      obtain ⟨e, hfailed, rfl, hledger⟩ | ⟨row?, hdone, hledger, rfl⟩ := hload
      · exact .inl ⟨e, congrArg _ hfailed, rfl, hnoted.ledger.trans (hledger.trans hreached.ledger)⟩
      · refine .inr ⟨row?, ?_, rfl⟩
        rw [hnoted.ledger, hledger]
        exact congrArg _ hdone
  · obtain ⟨e', e'', hreply, hr, hsettle, hledger⟩ | ⟨_, _, _, hr, _⟩ := closeRow_eq hclose
    · cases hr
      exact .inl ⟨e', Database.tryClose_of_error hreply, congrArg _ hsettle, hnoted.ledger.trans hledger⟩
    · cases hr

end Primitive
end Worklog
