import Worklog.Session.Call
import Worklog.Proofs.Database.Atomic

namespace Worklog

open Run

variable {key : KeyRef} {db db' : Database}

namespace Session

/-- How a start ends when the beginning of its interval has come to an end. -/
def startAnswer (key : KeyRef) : Except Fault Begun → Except Fault Interval
  | .ok (.interval i) => .ok i
  | .ok (.conflict _) => .error (alreadyStarted key)
  | .error f => .error (f.withKey key.user key.task)

/-- How a stop ends when the ending of its interval has come to an end. -/
def closeAnswer (key : KeyRef) : Except Fault Closed → Except Fault Interval
  | .ok (.interval i) => .ok i
  | .ok (.notFound _) => .error (notStarted key)
  | .error f => .error (f.withKey key.user key.task)

theorem keyed_eq {α : Type} (key : KeyRef) (x : Use α) (db : Database) :
    keyed key x db = ((x db).1.mapError (Fault.withKey key.user key.task), (x db).2) := by
  unfold keyed Run.mapError
  rcases x db with ⟨_ | _, _⟩ <;> rfl

/-- The insertion of a start is the beginning of an interval, and its answer tells how that ended. -/
theorem start_cases {fresh : Uuid} {now : Moment} {r : Except Fault Interval}
    (h : start Database.intervals fresh now key db = (r, db')) :
    ∃ begun db₁, Primitive.beginInterval fresh key now db = (begun, db₁) ∧ db₁.Alike db' ∧
      r = startAnswer key begun := by
  unfold start at h
  simp only [Run.bind_eq_iff, keyed_eq, Database.intervals] at h
  rcases hbegun : Primitive.beginInterval fresh key now db with ⟨begun, db₁⟩
  rw [hbegun] at h
  refine ⟨begun, db₁, rfl, ?_⟩
  obtain ⟨answer, db₂, hanswer, h⟩ | ⟨f, hfault, rfl⟩ := h
  · cases begun with
    | error f => cases hanswer
    | ok begun =>
      cases hanswer
      cases answer with
      | interval i =>
        cases h
        exact ⟨Database.alike_note _ _, rfl⟩
      | conflict _ =>
        cases h
        exact ⟨Database.alike_note _ _, rfl⟩
  · cases begun with
    | error f =>
      cases hfault
      exact ⟨.refl _, rfl⟩
    | ok begun => cases hfault

/-- The first step of a stop looks for the open interval of its key. -/
theorem find_eq (key : KeyRef) (db : Database) :
    find Database.intervals key db = ((Primitive.openInterval key db).1.mapError
      (Fault.withKey key.user key.task), (Primitive.openInterval key db).2) :=
  keyed_eq key _ db

theorem refuseStop_eq (key : KeyRef) (now : Moment) (db : Database) :
    ∃ db', finish Database.intervals key none now db = (.error (notStarted key), db') ∧
      db.Alike db' :=
  ⟨_, rfl, Database.alike_note _ _⟩

/-- The last step of a stop is the ending of the interval it found, and its answer tells how that
    ended. -/
theorem finish_cases {found : Interval} {now : Moment} {r : Except Fault Interval}
    (h : finish Database.intervals key (some found) now db = (r, db')) :
    ∃ closed db₁, Primitive.closeInterval found.id now db = (closed, db₁) ∧ db₁.Alike db' ∧
      r = closeAnswer key closed := by
  unfold finish close at h
  simp only [Run.bind_eq_iff, keyed_eq, Database.intervals] at h
  rcases hclosed : Primitive.closeInterval found.id now db with ⟨closed, db₁⟩
  rw [hclosed] at h
  refine ⟨closed, db₁, rfl, ?_⟩
  obtain ⟨answer, db₂, hanswer, h⟩ | ⟨f, hfault, rfl⟩ := h
  · cases closed with
    | error f => cases hanswer
    | ok closed =>
      cases hanswer
      cases answer with
      | interval i =>
        cases h
        exact ⟨Database.alike_note _ _, rfl⟩
      | notFound _ =>
        cases h
        exact ⟨Database.alike_note _ _, rfl⟩
  · cases closed with
    | error f =>
      cases hfault
      exact ⟨.refl _, rfl⟩
    | ok closed => cases hfault

theorem spares_start (fresh : Uuid) (now : Moment) (key : KeyRef) :
    Spares Database.ledger (start Database.intervals fresh now key) := by
  intro db f db' h
  obtain ⟨begun, db₁, hbegun, hlike, hr⟩ := start_cases h
  rw [hlike.ledger]
  refine Primitive.ledger_of_beginInterval hbegun fun i hi => ?_
  subst hi
  cases hr

theorem spares_finish (key : KeyRef) (found : Option Interval) (now : Moment) :
    Spares Database.ledger (finish Database.intervals key found now) := by
  intro db f db' h
  cases found with
  | none =>
    obtain ⟨db₁, hrefuse, hlike⟩ := refuseStop_eq key now db
    cases hrefuse.symm.trans h
    exact hlike.ledger
  | some i =>
    obtain ⟨closed, db₁, hclosed, hlike, hr⟩ := finish_cases h
    rw [hlike.ledger]
    refine Primitive.ledger_of_closeInterval hclosed fun i hi => ?_
    subst hi
    cases hr

theorem keeps_find (key : KeyRef) : Keeps Database.ledger (find Database.intervals key) := by
  intro db
  rw [find_eq]
  exact Primitive.keeps_openInterval key db

theorem spares_stop (now : Moment) (key : KeyRef) :
    Spares Database.ledger (stop Database.intervals now key) :=
  (keeps_find key).bind_spares fun found => spares_finish key found now

end Session

namespace Report

/-- The last step of a report adds up what was read and changes nothing. -/
theorem finish_eq (user : Option Ident) (w : Window) (is : List Interval) (now : Moment)
    (db : Database) :
    ∃ db', finish Database.intervals user w is now db = (aggregate is w now, db') ∧
      db.Alike db' := by
  unfold finish
  cases hrows : aggregate is w now with
  | ok rows => exact ⟨_, rfl, Database.alike_note _ _⟩
  | error f => exact ⟨db, rfl, .refl _⟩

theorem keeps_run (now : Moment) (user : Option Ident) (start stop : Moment) :
    Keeps Database.ledger (run Database.intervals now user start stop) := by
  refine (keeps_ofExcept _).bind fun window => ?_
  split
  · exact keeps_pure []
  · refine (Primitive.keeps_intervalsOverlapping _ _ _).bind fun is db => ?_
    obtain ⟨db', hfinish, hlike⟩ := finish_eq user window is now db
    rw [hfinish]
    exact hlike.ledger

end Report
end Worklog
