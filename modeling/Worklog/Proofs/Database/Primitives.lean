import Worklog.Proofs.Database.Ledger
import Worklog.Proofs.Database.Work

namespace Worklog.Primitive

variable {key : KeyRef} {fresh id : Uuid} {db db' : Database}

/-- What an insertion that ended with an error means for the beginning of an interval. -/
def beginAnswer (key : KeyRef) : Raised → Except Fault Begun
  | .storage e =>
    if e.kind = .integrity ∧ e.refusal.blamesOpenIndex = true then .ok (.conflict key)
    else .error (Raised.settle (keyContext "begin_interval" key) (.storage e))
  | .fault f => .error f

/-- A failure that keeps the operation of its context is the one with which an integrity error leaves
    a scope of that context. -/
private theorem settle_integrity {context : Context} {operation : String} {e : StorageError}
    (hcontext : context.operation = some operation) (hnamed : operation ≠ "")
    (hkind : e.kind = .integrity) :
    Raised.settle (some context) (.storage e) =
      .failure (Failure.storage .constraint operation (some context)) := by
  simp [Raised.settle, hkind, Failure.namedOperation, hcontext, hnamed, StorageClass.problem]

/-- A failed insertion is judged by its error alone. -/
theorem judgeBegin_error (key : KeyRef) (e : Raised) (db : Database) :
    ∃ db', judgeBegin key (.error e) db = (beginAnswer key e, db') ∧ db.Alike db' := by
  cases e with
  | fault f => exact Database.leave_eq (α := Begun) _ (.fault f) db
  | storage e =>
    by_cases hkind : e.kind = .integrity
    · by_cases hblames : e.refusal.blamesOpenIndex = true
      · refine ⟨db, ?_, .refl db⟩
        simp only [judgeBegin, beginRejected, beginAnswer, hkind, hblames, and_self, if_true]
        rfl
      · refine ⟨db.note (rejected key e), ?_, Database.alike_note _ db⟩
        have hsettle : Raised.settle (keyContext "begin_interval" key) (.storage e) = _ :=
          settle_integrity rfl (by decide) hkind
        simp only [judgeBegin, beginRejected, beginAnswer, hkind, hblames, and_false, if_true, hsettle,
          Bool.false_eq_true, if_false]
        rfl
    · obtain ⟨db', hleave, hlike⟩ := Database.leave_eq (α := Begun)
        (some (keyContext "begin_interval" key)) (.storage e) db
      refine ⟨db', ?_, hlike⟩
      simp only [judgeBegin, beginAnswer, hkind, false_and, if_false]
      exact hleave

/-- An insertion and its commit store one row, or end with an error and store nothing. -/
theorem insert_cases {started : Moment} {stopped : Option Moment} {s t : Scope}
    {r : Except Raised Interval} (h : insert fresh key started stopped s = (r, t)) :
    (s.database.Alike t.database ∧ ∃ e, r = .error e ∧
      s.database.Refuses (Ledger.insertRow · fresh key started stopped s.working) e) ∨
    ∃ prepared row, Ledger.insertRow prepared fresh key started stopped s.working =
        .ok (row, t.database.ledger) ∧ t.database.disruption = s.database.disruption ∧
      r = .ok ⟨fresh, key.user.getD row.user, key.task.getD row.task, started, stopped⟩ := by
  unfold insert at h
  rw [Run.bind_eq_iff] at h
  obtain ⟨row, u, htell, h⟩ | ⟨e, htell, rfl⟩ := h
  · obtain ⟨_, e, _, hr⟩ | ⟨prepared, a, l, hinsert, hr, hlike⟩ := Work.tell_cases htell
    · cases hr
    · cases hr
      rw [Run.bind_eq_iff] at h
      obtain ⟨_, v, hcommit, h⟩ | ⟨e, hcommit, rfl⟩ := h
      · cases h
        obtain ⟨_, e, _, hr⟩ | ⟨_, hdone⟩ := Work.commit_cases hcommit
        · cases hr
        · refine .inr ⟨prepared, row, ?_, ?_, rfl⟩
          · rw [hinsert, hdone.database.ledger]
            exact congrArg _ (congrArg _ hlike.working.symm)
          · exact hdone.database.disruption.trans hlike.database.disruption
      · obtain ⟨hsame, e', he, hr⟩ | ⟨hr, _⟩ := Work.commit_cases hcommit
        · cases hr
          have hraises : s.database.Raises e := by
            have h := he
            simpa only [Database.Raises, hlike.database.disruption] using h
          exact .inl ⟨hlike.database.trans hsame.database, e, rfl, .inl hraises⟩
        · cases hr
  · obtain ⟨hlike, e', he, hr⟩ | ⟨_, _, _, _, hr, _⟩ := Work.tell_cases htell
    · cases hr
      exact .inl ⟨hlike.database, e, rfl, he⟩
    · cases hr

/-- Beginning an interval stores one row and answers the interval as it was handed in, or stores
    nothing and is judged by the error of the insertion. -/
theorem beginInterval_cases {started : Moment} {r : Except Fault Begun}
    (h : beginInterval fresh key started db = (r, db')) :
    db'.disruption = db.disruption ∧
    ((∃ prepared row, Ledger.insertRow prepared fresh key started none db.ledger =
        .ok (row, db'.ledger) ∧
      r = .ok (.interval ⟨fresh, key.user.getD row.user, key.task.getD row.task, started, none⟩)) ∨
    (db'.ledger = db.ledger ∧ ∃ e, r = beginAnswer key e ∧
      db.Refuses (Ledger.insertRow · fresh key started none db.ledger) e)) := by
  unfold beginInterval attemptBegin at h
  rw [Run.bind_of_ok (Database.attempt_eq _ db)] at h
  rcases hinsert : insert fresh key started none ⟨db, db.ledger⟩ with ⟨final, s⟩
  rw [hinsert] at h
  obtain ⟨hlike, e, rfl, he⟩ | ⟨prepared, row, hrow, hdisruption, rfl⟩ := insert_cases hinsert
  · obtain ⟨db₁, hjudge, hnoted⟩ := judgeBegin_error key e s.database
    rw [hjudge] at h
    cases h
    have hall := hlike.trans hnoted
    exact ⟨hall.disruption, .inr ⟨hall.ledger, e, rfl, he⟩⟩
  · cases h
    exact ⟨hdisruption, .inl ⟨prepared, row, hrow, rfl⟩⟩

/-- The open interval among the open rows of a key. -/
def openAnswer (key : KeyRef) : List Row → Except Fault (Option Interval)
  | [] => .ok none
  | [r] => .ok (some r.interval)
  | rows => .error (.failure ⟨.violation (.severalOpen rows.length), keyContext "open_interval" key⟩)

/-- Looking for the open interval of a key changes nothing and answers from its open rows. -/
theorem openInterval_cases {r : Except Fault (Option Interval)}
    (h : openInterval key db = (r, db')) :
    db.Alike db' ∧
    ((∃ prepared rows, Ledger.openRows prepared key db.ledger = .ok rows ∧ r = openAnswer key rows) ∨
    ∃ e, r = .error (Raised.settle (keyContext "open_interval" key) e) ∧
      db.Refuses (Ledger.openRows · key db.ledger) e) := by
  obtain ⟨r', s, hwork, hnoted, rfl⟩ := Database.scope_cases h
  rw [Run.bind_eq_iff] at hwork
  obtain ⟨rows, u, hask, hwork⟩ | ⟨e, hask, rfl⟩ := hwork
  · obtain ⟨hlike, ⟨_, _, hr⟩ | ⟨prepared, a, hopen, hr⟩⟩ := Work.ask_cases hask
    · cases hr
    · cases hr
      have hsingle : single key rows u = ((openAnswer key rows).mapError Raised.fault, u) := by
        rcases rows with _ | ⟨r, _ | ⟨_, _⟩⟩ <;> rfl
      rw [hsingle] at hwork
      cases hwork
      refine ⟨hlike.database.trans hnoted, .inl ⟨prepared, rows, hopen, ?_⟩⟩
      cases openAnswer key rows <;> rfl
  · obtain ⟨hlike, ⟨e', he, hr⟩ | ⟨_, _, _, hr⟩⟩ := Work.ask_cases hask
    · cases hr
      exact ⟨hlike.database.trans hnoted, .inr ⟨e, rfl, he⟩⟩
    · cases hr

/-- Reading the intervals of a window changes nothing and answers the rows that reach into it. -/
theorem intervalsOverlapping_cases {user : Option Ident} {start stop : Moment}
    {r : Except Fault (List Interval)} (h : intervalsOverlapping user start stop db = (r, db')) :
    db.Alike db' ∧
    ((∃ prepared rows, Ledger.overlappingRows prepared user start stop db.ledger = .ok rows ∧
      r = .ok (rows.map Row.interval)) ∨
    ∃ e, r = .error (Raised.settle
        (some { user, operation := some "intervals_overlapping" }) e) ∧
      db.Refuses (Ledger.overlappingRows · user start stop db.ledger) e) := by
  obtain ⟨r', s, hwork, hnoted, rfl⟩ := Database.scope_cases h
  rw [Run.bind_eq_iff] at hwork
  obtain ⟨rows, u, hask, hwork⟩ | ⟨e, hask, rfl⟩ := hwork
  · obtain ⟨hlike, ⟨_, _, hr⟩ | ⟨prepared, a, hrows, hr⟩⟩ := Work.ask_cases hask
    · cases hr
    · cases hr
      cases hwork
      exact ⟨hlike.database.trans hnoted, .inl ⟨prepared, rows, hrows, rfl⟩⟩
  · obtain ⟨hlike, ⟨e', he, hr⟩ | ⟨_, _, _, hr⟩⟩ := Work.ask_cases hask
    · cases hr
      exact ⟨hlike.database.trans hnoted, .inr ⟨e, rfl, he⟩⟩
    · cases hr

/-- The conditional change of an ending. A rejection by a constraint leaves as a failure of its own,
    which says the same as the one with which its scope would have ended. -/
private theorem closeRow_cases {stopped : Moment} {s t : Scope} {r : Except Raised Nat}
    (h : closeRow id stopped s = (r, t)) :
    (s.database.Alike t.database ∧ ∃ e e', r = .error e' ∧
      e'.settle (some (closeContext id)) = e.settle (some (closeContext id)) ∧
      s.database.Refuses (fun _ => Ledger.closeRow id stopped s.working) e) ∨
    ∃ n l, Ledger.closeRow id stopped s.working = .ok (n, l) ∧ r = .ok n ∧
      { s with working := l }.Alike t := by
  unfold closeRow Run.handle at h
  rcases hwrite : Work.write .execute (Ledger.closeRow id stopped) s with ⟨final, u⟩
  rw [hwrite] at h
  obtain ⟨hlike, e, he, rfl⟩ | ⟨n, l, hclose, rfl, hlike⟩ := Work.write_cases hwrite
  · refine .inl ?_
    cases e with
    | fault f =>
      cases h
      exact ⟨hlike.database, .fault f, .fault f, rfl, rfl, he⟩
    | storage e =>
      by_cases hkind : e.kind = .integrity
      · simp only [hkind, if_true] at h
        cases h
        refine ⟨hlike.database, .storage e, _, rfl, ?_, he⟩
        exact (settle_integrity rfl (by decide) hkind).symm
      · simp only [hkind, if_false] at h
        cases h
        exact ⟨hlike.database, .storage e, .storage e, rfl, rfl, he⟩
  · cases h
    exact .inr ⟨n, l, hclose, rfl, hlike⟩

/-- Ending an interval gives its row an end and answers the row, or finds no open row with the id, or is
    refused; the last two change nothing. -/
theorem closeInterval_cases {stopped : Moment} {r : Except Fault Closed}
    (h : closeInterval id stopped db = (r, db')) :
    db'.disruption = db.disruption ∧
    ((∃ n row?, n ≠ 0 ∧ Ledger.closeRow id stopped db.ledger = .ok (n, db'.ledger) ∧
      Ledger.findRow id db'.ledger = .ok row? ∧
      r = .ok (row?.elim (.notFound id) fun row => .interval row.interval)) ∨
    (db'.ledger = db.ledger ∧
      ((∃ l, Ledger.closeRow id stopped db.ledger = .ok (0, l) ∧ r = .ok (.notFound id)) ∨
      ∃ e, r = .error (Raised.settle (some (closeContext id)) e) ∧
        db.Refuses (fun _ => Ledger.closeRow id stopped db.ledger) e))) := by
  obtain ⟨r', s, hwork, hnoted, rfl⟩ := Database.scope_cases h
  rw [Run.bind_eq_iff] at hwork
  obtain ⟨n, u, hclose, hwork⟩ | ⟨e, hclose, rfl⟩ := hwork
  · obtain ⟨_, _, _, hr, _⟩ | ⟨m, l, hchange, hr, hlike⟩ := closeRow_cases hclose
    · cases hr
    cases hr
    by_cases hnone : n = 0
    · subst hnone
      cases hwork
      have hall := hlike.database.trans hnoted
      exact ⟨hall.disruption, .inr ⟨hall.ledger, .inl ⟨l, hchange, rfl⟩⟩⟩
    rw [if_neg hnone, Run.bind_eq_iff] at hwork
    obtain ⟨row?, v, hload, hwork⟩ | ⟨e, hload, rfl⟩ := hwork
    · obtain ⟨hloaded, ⟨_, _, hr⟩ | ⟨a, hfind, hr⟩⟩ := Work.read_cases hload
      · cases hr
      cases hr
      rw [hlike.working] at hfind
      rw [Run.bind_eq_iff] at hwork
      obtain ⟨_, w, hcommit, hwork⟩ | ⟨e, hcommit, rfl⟩ := hwork
      · cases hwork
        obtain ⟨_, _, _, hr⟩ | ⟨_, hdone⟩ := Work.commit_cases hcommit
        · cases hr
        have hledger : db'.ledger = l := by
          rw [hnoted.ledger, hdone.database.ledger, hloaded.working, hlike.working]
        refine ⟨?_, .inl ⟨n, row?, hnone, ?_, ?_, rfl⟩⟩
        · rw [hnoted.disruption, hdone.database.disruption, hloaded.database.disruption,
            hlike.database.disruption]
        · rw [hledger, hchange]
        · rw [hledger, hfind]
      · obtain ⟨hsame, e', he, hr⟩ | ⟨hr, _⟩ := Work.commit_cases hcommit
        · cases hr
          have hbefore := hlike.database.trans hloaded.database
          have hall := (hbefore.trans hsame.database).trans hnoted
          exact ⟨hall.disruption, .inr ⟨hall.ledger, .inr ⟨e, rfl, .inl
            ((hbefore.raises_iff e).mp he)⟩⟩⟩
        · cases hr
    · obtain ⟨hloaded, ⟨e', he, hr⟩ | ⟨_, _, hr⟩⟩ := Work.read_cases hload
      · cases hr
        have hall := (hlike.database.trans hloaded.database).trans hnoted
        refine ⟨hall.disruption, .inr ⟨hall.ledger, .inr ⟨e, rfl, ?_⟩⟩⟩
        obtain hraised | ⟨_, x, hreject, _⟩ := he
        · exact .inl ((hlike.database.raises_iff e).mp hraised)
        · -- The table was there for the change, so the row can be looked up.
          obtain ⟨rows, ended, _, _, _, _, rfl⟩ := Ledger.closeRow_eq_ok hchange
          rw [hlike.working, Ledger.findRow_eq_ok rfl] at hreject
          cases hreject
      · cases hr
  · obtain ⟨hlike, e', e'', hr, hsettle, he⟩ | ⟨_, _, _, hr, _⟩ := closeRow_cases hclose
    · cases hr
      have hall := hlike.trans hnoted
      exact ⟨hall.disruption, .inr ⟨hall.ledger, .inr ⟨e', congrArg _ hsettle, he⟩⟩⟩
    · cases hr

end Worklog.Primitive
