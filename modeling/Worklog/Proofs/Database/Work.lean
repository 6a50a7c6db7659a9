import Worklog.Proofs.Run
import Worklog.Store.Intervals

namespace Worklog

namespace Database

/-- Two databases that differ in nothing but bookkeeping: their accesses, prepared statements and logs. -/
structure Alike (a b : Database) : Prop where
  ledger : b.ledger = a.ledger
  disruption : b.disruption = a.disruption

theorem Alike.refl (db : Database) : db.Alike db := ⟨rfl, rfl⟩

theorem Alike.trans {a b c : Database} (hab : a.Alike b) (hbc : b.Alike c) : a.Alike c :=
  ⟨hbc.ledger.trans hab.ledger, hbc.disruption.trans hab.disruption⟩

theorem alike_note (r : Log.Record) (db : Database) : db.Alike (db.note r) := ⟨rfl, rfl⟩

/-- An error that the surroundings of the database may raise at some access. -/
def Raises (db : Database) (e : Raised) : Prop := ∃ n verb, db.disruption n verb = some e

/-- Nothing disturbs the database. -/
def Undisturbed (db : Database) : Prop := ∀ n verb, db.disruption n verb = none

theorem Undisturbed.not_raises {db : Database} (h : db.Undisturbed) (e : Raised) : ¬ db.Raises e := by
  rintro ⟨n, verb, he⟩
  rw [h n verb] at he
  cases he

/-- An error with which a statement may end: one from the surroundings, or the rejection of the
    statement, whether or not the database had prepared it. -/
def Refuses {α : Type} (db : Database) (answer : Bool → Except Rejection α) (e : Raised) : Prop :=
  db.Raises e ∨ ∃ prepared x, answer prepared = .error x ∧ e = x.raised

theorem Alike.raises_iff {a b : Database} (h : a.Alike b) (e : Raised) : b.Raises e ↔ a.Raises e := by
  simp only [Raises, h.disruption]

end Database

namespace Scope

/-- Two scopes with the same working copy on databases that differ in nothing but bookkeeping. -/
structure Alike (s t : Scope) : Prop where
  working : t.working = s.working
  database : s.database.Alike t.database

theorem Alike.refl (s : Scope) : s.Alike s := ⟨rfl, .refl _⟩

theorem Alike.trans {s t u : Scope} (hst : s.Alike t) (htu : t.Alike u) : s.Alike u :=
  ⟨htu.working.trans hst.working, hst.database.trans htu.database⟩

end Scope

namespace Work

variable {α : Type} {verb : Verb} {q : Query} {s t : Scope}

/-- An access only counts itself, whether or not it is disturbed. -/
theorem access_cases {r : Except Raised Unit} (h : access verb s = (r, t)) :
    s.Alike t ∧ ((∃ e, s.database.Raises e ∧ r = .error e) ∨ r = .ok ()) := by
  unfold access at h
  dsimp only at h
  split at h
  · next e he =>
    cases h
    exact ⟨⟨rfl, rfl, rfl⟩, .inl ⟨e, ⟨_, _, he⟩, rfl⟩⟩
  · cases h
    exact ⟨⟨rfl, rfl, rfl⟩, .inr rfl⟩

/-- A read answers what its statement says of the working copy, unless it is refused. -/
theorem read_cases {statement : Ledger → Except Rejection α} {r : Except Raised α}
    (h : read verb statement s = (r, t)) :
    s.Alike t ∧ ((∃ e, s.database.Refuses (fun _ => statement s.working) e ∧ r = .error e) ∨
      ∃ a, statement s.working = .ok a ∧ r = .ok a) := by
  unfold read at h
  rw [Run.bind_eq_iff] at h
  obtain ⟨_, u, haccess, h⟩ | ⟨e, haccess, rfl⟩ := h
  · obtain ⟨hlike, _⟩ := access_cases haccess
    simp only [Run.bind_eq_iff, Run.look, Run.ofExcept] at h
    obtain ⟨l, v, hlook, h⟩ | ⟨e, he, _⟩ := h
    · cases hlook
      cases h
      rw [hlike.working]
      refine ⟨hlike, ?_⟩
      cases ha : statement s.working with
      | ok a => exact .inr ⟨a, rfl, rfl⟩
      | error x => exact .inl ⟨_, .inr ⟨false, x, rfl, rfl⟩, rfl⟩
    · cases he
  · obtain ⟨hlike, ⟨e', he, hr⟩ | hr⟩ := access_cases haccess
    · cases hr
      exact ⟨hlike, .inl ⟨e, .inl he, rfl⟩⟩
    · cases hr

/-- Noting that a statement has been prepared cannot fail. -/
theorem prepare_alike (q : Query) (a : Except Rejection α) (s : Scope) :
    ∃ u, prepare q a s = (.ok (), u) ∧ s.Alike u := by
  unfold prepare
  split
  · exact ⟨s, rfl, .refl s⟩
  · exact ⟨s, rfl, .refl s⟩
  · exact ⟨_, rfl, rfl, rfl, rfl⟩

/-- A question is answered as its statement says of the working copy, unless it is refused. -/
theorem ask_cases {statement : Bool → Ledger → Except Rejection α} {r : Except Raised α}
    (h : ask verb q statement s = (r, t)) :
    s.Alike t ∧ ((∃ e, s.database.Refuses (statement · s.working) e ∧ r = .error e) ∨
      ∃ prepared a, statement prepared s.working = .ok a ∧ r = .ok a) := by
  unfold ask at h
  rw [Run.bind_eq_iff] at h
  obtain ⟨_, u, haccess, h⟩ | ⟨e, haccess, rfl⟩ := h
  · obtain ⟨hlike, _⟩ := access_cases haccess
    rw [Run.bind_eq_iff] at h
    obtain ⟨v, w, hlook, h⟩ | ⟨e, he, _⟩ := h
    · cases hlook
      simp only [id] at h
      obtain ⟨x, hx, hprepare⟩ := prepare_alike q
        (statement (u.database.prepared.contains q) u.working) u
      rw [Run.bind_of_ok hx] at h
      cases h
      rw [hlike.working]
      refine ⟨hlike.trans hprepare, ?_⟩
      cases ha : statement (u.database.prepared.contains q) s.working with
      | ok a => exact .inr ⟨_, a, ha, rfl⟩
      | error x => exact .inl ⟨_, .inr ⟨_, x, ha, rfl⟩, rfl⟩
    · cases he
  · obtain ⟨hlike, ⟨e', he, hr⟩ | hr⟩ := access_cases haccess
    · cases hr
      exact ⟨hlike, .inl ⟨e, .inl he, rfl⟩⟩
    · cases hr

/-- The working copy is replaced by what a statement makes of it. -/
private theorem keep_cases {x : Work (α × Ledger)} {r : Except Raised α}
    (h : (do
      let (a, l) ← x
      Run.change fun s => { s with working := l }
      return a : Work α) s = (r, t)) :
    (∃ e, x s = (.error e, t) ∧ r = .error e) ∨
      ∃ a l u, x s = (.ok (a, l), u) ∧ r = .ok a ∧ t = { u with working := l } := by
  rw [Run.bind_eq_iff] at h
  obtain ⟨⟨a, l⟩, u, hx, h⟩ | ⟨e, hx, rfl⟩ := h
  · cases h
    exact .inr ⟨a, l, u, hx, rfl, rfl⟩
  · exact .inl ⟨e, hx, rfl⟩

/-- A change that is refused leaves the working copy alone. -/
theorem write_cases {statement : Ledger → Except Rejection (α × Ledger)} {r : Except Raised α}
    (h : write verb statement s = (r, t)) :
    (s.Alike t ∧ ∃ e, s.database.Refuses (fun _ => statement s.working) e ∧ r = .error e) ∨
      ∃ a l, statement s.working = .ok (a, l) ∧ r = .ok a ∧ { s with working := l }.Alike t := by
  obtain ⟨e, hx, rfl⟩ | ⟨a, l, u, hx, rfl, rfl⟩ := keep_cases h
  · obtain ⟨hlike, ⟨e', he, hr⟩ | ⟨a, _, hr⟩⟩ := read_cases hx
    · cases hr
      exact .inl ⟨hlike, e, he, rfl⟩
    · cases hr
  · obtain ⟨hlike, ⟨e', _, hr⟩ | ⟨a', ha, hr⟩⟩ := read_cases hx
    · cases hr
    · cases hr
      exact .inr ⟨a, l, ha, rfl, rfl, hlike.database⟩

/-- A change by a statement that may have been prepared; one that is refused leaves the working
    copy alone. -/
theorem tell_cases {statement : Bool → Ledger → Except Rejection (α × Ledger)} {r : Except Raised α}
    (h : tell verb q statement s = (r, t)) :
    (s.Alike t ∧ ∃ e, s.database.Refuses (statement · s.working) e ∧ r = .error e) ∨
      ∃ prepared a l, statement prepared s.working = .ok (a, l) ∧ r = .ok a ∧
        { s with working := l }.Alike t := by
  obtain ⟨e, hx, rfl⟩ | ⟨a, l, u, hx, rfl, rfl⟩ := keep_cases h
  · obtain ⟨hlike, ⟨e', he, hr⟩ | ⟨p, a, _, hr⟩⟩ := ask_cases hx
    · cases hr
      exact .inl ⟨hlike, e, he, rfl⟩
    · cases hr
  · obtain ⟨hlike, ⟨e', _, hr⟩ | ⟨p, a', ha, hr⟩⟩ := ask_cases hx
    · cases hr
    · cases hr
      exact .inr ⟨p, a, l, ha, rfl, rfl, hlike.database⟩

/-- A commit makes the working copy lasting or, when it is disturbed, changes nothing. -/
theorem commit_cases {r : Except Raised Unit} (h : commit s = (r, t)) :
    (s.Alike t ∧ ∃ e, s.database.Raises e ∧ r = .error e) ∨
      (r = .ok () ∧ { s with database := { s.database with ledger := s.working } }.Alike t) := by
  unfold commit at h
  rw [Run.bind_eq_iff] at h
  obtain ⟨_, u, haccess, h⟩ | ⟨e, haccess, rfl⟩ := h
  · obtain ⟨hlike, _⟩ := access_cases haccess
    cases h
    exact .inr ⟨rfl, hlike.working, hlike.working, hlike.database.disruption⟩
  · obtain ⟨hlike, ⟨e', he, hr⟩ | hr⟩ := access_cases haccess
    · exact .inl ⟨hlike, e', he, hr⟩
    · cases hr

end Work

namespace Database

variable {α : Type} {db db' : Database}

/-- An attempt ends as its work does, on the database that the work leaves. -/
theorem attempt_eq (work : Work α) (db : Database) :
    attempt work db = (.ok (work ⟨db, db.ledger⟩).1, (work ⟨db, db.ledger⟩).2.database) := rfl

/-- Leaving a scope with an error is noted, and nothing else. -/
theorem leave_eq (context : Option Context) (e : Raised) (db : Database) :
    ∃ db', leave context e db = ((.error (e.settle context) : Except Fault α), db') ∧
      db.Alike db' := by
  refine ⟨_, rfl, ?_⟩
  cases e with
  | storage e => exact alike_note _ db
  | fault f => exact .refl db

/-- A scope ends as its work does; an error leaves it as a fault. -/
theorem scope_cases {context : Option Context} {work : Work α} {r : Except Fault α}
    (h : scope context work db = (r, db')) :
    ∃ r' s, work ⟨db, db.ledger⟩ = (r', s) ∧ s.database.Alike db' ∧
      r = r'.mapError (Raised.settle context) := by
  unfold scope at h
  rw [Run.bind_of_ok (attempt_eq work db)] at h
  rcases hwork : work ⟨db, db.ledger⟩ with ⟨end', s⟩
  rw [hwork] at h
  refine ⟨end', s, rfl, ?_⟩
  cases end' with
  | ok a =>
    cases h
    exact ⟨.refl _, rfl⟩
  | error e =>
    obtain ⟨db₁, hleave, hlike⟩ := leave_eq (α := α) context e s.database
    change leave context e s.database = (r, db') at h
    rw [hleave] at h
    cases h
    exact ⟨hlike, rfl⟩

end Database
end Worklog
