import Worklog.Proofs.Schedule.System
import Worklog.Proofs.Session.Beside

namespace Worklog

/-- What is asked of the system. -/
inductive Ask where
  | start (user task : Int)
  | stop (user task : Int)
  | report (user : Int) (first last : Moment)
  deriving DecidableEq

namespace Ask

def user : Ask → Int
  | start user _ | stop user _ | report user _ _ => user

/-- The key that is to be started or stopped. -/
def key? : Ask → Option Key
  | start user task | stop user task => some (.ints user task)
  | report _ _ _ => none

/-- The answer depends on no other keys than these. -/
def Concerns (mine : Key → Bool) : Ask → Prop
  | start user task | stop user task => mine (.ints user task) = true
  | report user _ _ => ∀ task, mine ⟨.int user, task⟩ = true

variable {mine : Key → Bool} {ask : Ask} {key : Key}

theorem concerns_of_key (hkey : ask.key? = some key) (h : mine key = true) : ask.Concerns mine := by
  cases ask with
  | start _ _ | stop _ _ =>
    cases hkey
    exact h
  | report _ _ _ => cases hkey

theorem not_mine_of_not_concerns (h : ¬ ask.Concerns mine) (hkey : ask.key? = some key) :
    mine key = false :=
  Bool.eq_false_iff.mpr fun hmine => h (concerns_of_key hkey hmine)

/-- A call concerns no other keys than those of its user. -/
theorem concerns_user (ask : Ask) : ask.Concerns fun key => decide (key.user = .int ask.user) := by
  cases ask with
  | start _ _ | stop _ _ => exact decide_eq_true rfl
  | report _ _ _ => exact fun _ => decide_eq_true rfl

theorem user_of_key (hkey : ask.key? = some key) : key.user = .int ask.user := by
  cases ask with
  | start _ _ | stop _ _ =>
    cases hkey
    rfl
  | report _ _ _ => cases hkey

end Ask

/-- The answer to what was asked. -/
inductive Answer where
  | interval (r : Except Fault Interval)
  | times (r : Except Fault (List TaskTime))

/-- The answer without the ids in it. A report that is carried out has none. -/
def Answer.unnamed : Answer → Answer
  | interval r => interval (unnamedAnswer Interval.unnamed r)
  | times r => times (r.mapError Fault.unnamed)

/-- A call with the id that an interval gets if it begins one, the reading of its clock, and what disturbs
    it. -/
structure Errand where
  ask : Ask
  fresh : Uuid
  now : Moment
  trouble : Disruption := fun _ _ => none

namespace Errand

/-- The call whatever its id is. -/
def unnamed (e : Errand) : Errand := { e with fresh := .blank }

/-- The whole call. Its accesses are counted from the beginning, so that what disturbs it is its own. -/
def run (e : Errand) (db : Database) : Answer × Database :=
  let db := { db with accesses := 0, disruption := e.trouble }
  match e.ask with
  | .start user task =>
    (Session.start Database.intervals e.fresh e.now (Key.ints user task).ref db).map .interval id
  | .stop user task =>
    (Session.stop Database.intervals e.now (Key.ints user task).ref db).map .interval id
  | .report user first last =>
    (Report.run Database.intervals e.now (some (.int user)) first last db).map .times id

theorem ledger_of_report {e : Errand} {user : Int} {first last : Moment} (h : e.ask = .report user first last)
    (db : Database) : (e.run db).2.ledger = db.ledger := by
  simp only [run, h]
  exact Report.keeps_run e.now (some (.int user)) first last _

/-- The database after one call after the other. -/
def after (db : Database) (errands : List Errand) : Database :=
  errands.foldl (fun db e => (e.run db).2) db

/-- The answers to some of the calls, in their order. -/
def answers (about : Ask → Bool) : Database → List Errand → List Answer
  | _, [] => []
  | db, e :: rest =>
    if about e.ask then (e.run db).1 :: answers about (e.run db).2 rest
    else answers about (e.run db).2 rest

theorem answers_cons {about : Ask → Bool} {e : Errand} (h : about e.ask = true) (db : Database)
    (rest : List Errand) : answers about db (e :: rest) = (e.run db).1 :: answers about (e.run db).2 rest :=
  if_pos h

theorem answers_cons_of_not {about : Ask → Bool} {e : Errand} (h : about e.ask = false) (db : Database)
    (rest : List Errand) : answers about db (e :: rest) = answers about (e.run db).2 rest :=
  if_neg (Bool.eq_false_iff.mp h)

/-- The id of a start is not the one of a stored interval. -/
def Named (e : Errand) (db : Database) : Prop :=
  match e.ask with
  | .start _ _ => ∀ r ∈ db.ledger.rows.getD [], r.id ≠ e.fresh
  | .stop _ _ | .report _ _ _ => True

instance : (e : Errand) → (db : Database) → Decidable (e.Named db)
  | ⟨.start _ _, _, _, _⟩, _ => inferInstanceAs (Decidable (∀ r ∈ _, _))
  | ⟨.stop _ _, _, _, _⟩, _ | ⟨.report _ _ _, _, _, _⟩, _ => instDecidableTrue

/-- All ids are new when they are used. -/
def Fresh : Database → List Errand → Prop
  | _, [] => True
  | db, e :: rest => e.Named db ∧ Fresh (e.run db).2 rest

instance freshDecidable : (db : Database) → (errands : List Errand) → Decidable (Fresh db errands)
  | _, [] => instDecidableTrue
  | db, e :: rest =>
    have := freshDecidable (e.run db).2 rest
    inferInstanceAs (Decidable (_ ∧ _))

/-- The calls of a run that are to be kept, and no others, possibly under other ids. -/
def Only (keep : Ask → Bool) (errands fewer : List Errand) : Prop :=
  fewer.map unnamed = (errands.filter fun e => keep e.ask).map unnamed

end Errand

namespace Database

variable {mine : Key → Bool} {a b db : Database} {e e' : Errand}

/-- The intervals of a key, without their ids. -/
def rowsOf (key : Key) (db : Database) : Option (List Row) :=
  db.ledger.rows.map (Row.share fun k => decide (k = key))

/-- Two databases that store the same intervals of some keys. -/
def Near (mine : Key → Bool) (a b : Database) : Prop :=
  ∃ rows rows', a.ledger.Beside mine b.ledger rows rows'

theorem Near.symm (h : Near mine a b) : Near mine b a := by
  obtain ⟨rows, rows', h⟩ := h
  exact ⟨rows', rows, h.symm⟩

theorem Near.rowsOf {key : Key} (h : Near (fun k => decide (k = key)) a b) : b.rowsOf key = a.rowsOf key := by
  obtain ⟨rows, rows', h⟩ := h
  rw [Database.rowsOf, Database.rowsOf, h.left.stored, h.right.stored, Option.map_some, Option.map_some,
    h.share]

/-- A call ends alike on two databases with the same intervals of all keys that it concerns. -/
theorem Near.run (h : Near mine a b) (hsame : e'.unnamed = e.unnamed) (hconcerns : e.ask.Concerns mine)
    (hnamed : e.Named a) (hnamed' : e'.Named b) :
    (e'.run b).1.unnamed = (e.run a).1.unnamed ∧ Near mine (e.run a).2 (e'.run b).2 := by
  obtain ⟨rows, rows', h⟩ := h
  obtain ⟨ask, fresh, now, trouble⟩ := e
  obtain ⟨ask', fresh', now', trouble'⟩ := e'
  obtain ⟨rfl, _, rfl, rfl⟩ := Errand.mk.inj hsame
  -- Both calls count their accesses from the beginning, so that the same disturbances meet the same ones.
  let c : Database := { a with accesses := 0, disruption := trouble' }
  let d : Database := { b with accesses := 0, disruption := trouble' }
  have hboth : c.ledger.Beside mine d.ledger rows rows' := h
  have hhit : ∀ k verb, d.hit k verb = c.hit k verb := fun _ _ => rfl
  cases ask' with
  | start user task =>
    have hnew (r : Row) (hr : r ∈ rows) : r.id ≠ fresh :=
      hnamed r (by rw [h.left.stored]; exact hr)
    have hnew' (r : Row) (hr : r ∈ rows') : r.id ≠ fresh' :=
      hnamed' r (by rw [h.right.stored]; exact hr)
    obtain ⟨hanswer, hlater⟩ := Session.start_beside hboth hhit hconcerns hnew hnew' now' rfl rfl
    exact ⟨congrArg Answer.interval hanswer, hlater⟩
  | stop user task =>
    obtain ⟨hanswer, hlater⟩ := Session.stop_beside hboth hhit hconcerns now' rfl rfl
    exact ⟨congrArg Answer.interval hanswer, hlater⟩
  | report user first last =>
    refine ⟨congrArg Answer.times (Report.run_beside hboth hhit hconcerns now' first last), rows, rows', ?_⟩
    rw [Errand.ledger_of_report rfl, Errand.ledger_of_report rfl]
    exact h

/-- A call about another key makes no difference, and neither does a report. -/
theorem Near.aside (h : Near mine a b) (e : Errand) (hother : ∀ key, e.ask.key? = some key → mine key = false) :
    Near mine (e.run a).2 b := by
  obtain ⟨rows, rows', h⟩ := h
  obtain ⟨ask, fresh, now, trouble⟩ := e
  let c : Database := { a with accesses := 0, disruption := trouble }
  have hone : c.ledger.Beside mine b.ledger rows rows' := h
  cases ask with
  | start user task =>
    obtain ⟨later, hlater⟩ := Session.start_aside hone (hother _ rfl) fresh now rfl
    exact ⟨later, rows', hlater⟩
  | stop user task =>
    obtain ⟨later, hlater⟩ := Session.stop_aside hone (hother _ rfl) now rfl
    exact ⟨later, rows', hlater⟩
  | report user first last =>
    refine ⟨rows, rows', ?_⟩
    rw [Errand.ledger_of_report rfl]
    exact h

end Database

namespace Errand

open Database

variable {mine : Key → Bool} {keep about : Ask → Bool} {a b db : Database} {errands fewer : List Errand}

theorem Only.nil (h : Only keep [] fewer) : fewer = [] := List.map_eq_nil_iff.mp h

theorem Only.dropped {e : Errand} (h : Only keep (e :: errands) fewer) (hdrop : keep e.ask = false) :
    Only keep errands fewer := by
  rwa [Only, List.filter_cons_of_neg (by simp [hdrop])] at h

theorem Only.kept {e : Errand} (h : Only keep (e :: errands) fewer) (hkeep : keep e.ask = true) :
    ∃ e' rest, fewer = e' :: rest ∧ e'.unnamed = e.unnamed ∧ Only keep errands rest := by
  rw [Only, List.filter_cons_of_pos (by simpa using hkeep), List.map_cons] at h
  obtain ⟨e', rest, rfl, he, hrest⟩ := List.map_eq_cons_iff.mp h
  exact ⟨e', rest, rfl, he, hrest⟩

/-- What is left of a run ends as it did in the whole run, if all calls of some keys are left and what is
    looked at concerns these keys only. -/
theorem Only.run (mine : Key → Bool)
    (hkeep : ∀ ask key, ask.key? = some key → mine key = true → keep ask = true)
    (habout : ∀ ask, about ask = true → keep ask = true ∧ ask.Concerns mine)
    (honly : Only keep errands fewer) (h : Near mine a b) (hfresh : Fresh a errands)
    (hfresh' : Fresh b fewer) :
    (answers about b fewer).map Answer.unnamed = (answers about a errands).map Answer.unnamed ∧
      Near mine (after a errands) (after b fewer) := by
  induction errands generalizing a b fewer with
  | nil =>
    obtain rfl := honly.nil
    exact ⟨rfl, h⟩
  | cons e rest ih =>
    obtain ⟨hnamed, hfresh⟩ := hfresh
    cases hkept : keep e.ask with
    | false =>
      have hunseen : about e.ask = false := Bool.eq_false_iff.mpr fun hseen => by
        rw [(habout _ hseen).1] at hkept
        cases hkept
      have hother (key : Key) (hkey : e.ask.key? = some key) : mine key = false :=
        Bool.eq_false_iff.mpr fun hmine => by
          rw [hkeep _ key hkey hmine] at hkept
          cases hkept
      rw [answers_cons_of_not hunseen]
      exact ih (honly.dropped hkept) (h.aside e hother) hfresh hfresh'
    | true =>
      obtain ⟨e', fewer, rfl, hsame, honly⟩ := honly.kept hkept
      obtain ⟨hnamed', hfresh'⟩ := hfresh'
      have hask : e'.ask = e.ask := (Errand.mk.inj hsame).1
      by_cases hconcerns : e.ask.Concerns mine
      · obtain ⟨hanswer, hnear⟩ := h.run hsame hconcerns hnamed hnamed'
        obtain ⟨hrest, hlater⟩ := ih honly hnear hfresh hfresh'
        refine ⟨?_, hlater⟩
        cases hseen : about e.ask with
        | true =>
          rw [answers_cons hseen, answers_cons (hask ▸ hseen), List.map_cons, List.map_cons, hanswer, hrest]
        | false => rw [answers_cons_of_not hseen, answers_cons_of_not (hask ▸ hseen), hrest]
      · -- Such a call is made in both runs, but nobody looks at its answer, which may differ.
        have hunseen : about e.ask = false := Bool.eq_false_iff.mpr fun hseen => hconcerns (habout _ hseen).2
        have hother (key : Key) (hkey : e.ask.key? = some key) : mine key = false :=
          Ask.not_mine_of_not_concerns hconcerns hkey
        have hnear := ((h.aside e hother).symm.aside e' (hask ▸ hother)).symm
        rw [answers_cons_of_not hunseen, answers_cons_of_not (hask ▸ hunseen)]
        exact ih honly hnear hfresh hfresh'

/-- The calls of a key end as if there were none of other keys, and leave the same rows; the calls of a user
    end as if there were none of other users. -/
theorem keys_and_users_apart {rows : List Row} (h : db.ledger.Whole rows) (hfresh : Fresh db errands)
    (hfresh' : Fresh db fewer) :
    (∀ user task,
      Only (fun ask => ask.key?.all fun key => decide (key = .ints user task)) errands fewer →
      (answers (fun ask => ask.key? = some (.ints user task)) db fewer).map Answer.unnamed =
        (answers (fun ask => ask.key? = some (.ints user task)) db errands).map Answer.unnamed ∧
      (after db fewer).rowsOf (.ints user task) = (after db errands).rowsOf (.ints user task)) ∧
    ∀ user, Only (fun ask => ask.user = user) errands fewer →
      (answers (fun ask => ask.user = user) db fewer).map Answer.unnamed =
        (answers (fun ask => ask.user = user) db errands).map Answer.unnamed := by
  have hsame (mine : Key → Bool) : Near mine db db := ⟨rows, rows, .refl mine h⟩
  constructor
  · intro user task honly
    have hkeep (ask : Ask) (key : Key) (hkey : ask.key? = some key)
        (hmine : decide (key = .ints user task) = true) :
        (ask.key?.all fun key => decide (key = .ints user task)) = true := by
      rw [hkey]
      exact hmine
    have habout (ask : Ask) (hask : decide (ask.key? = some (.ints user task)) = true) :
        (ask.key?.all fun key => decide (key = .ints user task)) = true ∧
          ask.Concerns fun key => decide (key = .ints user task) := by
      have hkey := of_decide_eq_true hask
      exact ⟨hkeep ask _ hkey (decide_eq_true rfl), Ask.concerns_of_key hkey (decide_eq_true rfl)⟩
    obtain ⟨hanswers, hnear⟩ := honly.run _ hkeep habout (hsame _) hfresh hfresh'
    exact ⟨hanswers, hnear.rowsOf⟩
  · intro user honly
    have hkeep (ask : Ask) (key : Key) (hkey : ask.key? = some key)
        (hmine : decide (key.user = .int user) = true) : decide (ask.user = user) = true := by
      have huser := of_decide_eq_true hmine
      rw [Ask.user_of_key hkey] at huser
      exact decide_eq_true (Ident.int.inj huser)
    have habout (ask : Ask) (hask : decide (ask.user = user) = true) :
        decide (ask.user = user) = true ∧ ask.Concerns fun key => decide (key.user = .int user) := by
      obtain rfl := of_decide_eq_true hask
      exact ⟨hask, ask.concerns_user⟩
    exact (honly.run _ hkeep habout (hsame _) hfresh hfresh').1

/-- A start, a second one that is refused, a stop by a clock without an offset, which fails, another one and
    a report, with and without the calls of somebody whose stop is cancelled at its commit. -/
theorem calls_beside_cancelled_stop :
    let naive : Moment := ⟨4, none, by decide⟩
    let cancelled : Disruption := fun _ verb => if verb = .commit then some (.fault .cancelled) else none
    let errands : List Errand :=
      [{ ask := .start 1 1, fresh := .ofNat 0xa1, now := tick 1 },
        { ask := .start 2 1, fresh := .ofNat 0xa2, now := tick 2 },
        { ask := .start 1 1, fresh := .ofNat 0xa3, now := tick 2 },
        { ask := .stop 2 1, fresh := .ofNat 0xa4, now := tick 3, trouble := cancelled },
        { ask := .stop 1 1, fresh := .ofNat 0xa5, now := naive },
        { ask := .stop 1 1, fresh := .ofNat 0xa6, now := tick 5 },
        { ask := .report 1 (tick 0) (tick 9), fresh := .ofNat 0xa7, now := tick 6 }]
    let fewer : List Errand :=
      [{ ask := .start 1 1, fresh := .ofNat 0xb1, now := tick 1 },
        { ask := .start 1 1, fresh := .ofNat 0xb2, now := tick 2 },
        { ask := .stop 1 1, fresh := .ofNat 0xb3, now := naive },
        { ask := .stop 1 1, fresh := .ofNat 0xb4, now := tick 5 },
        { ask := .report 1 (tick 0) (tick 9), fresh := .ofNat 0xb5, now := tick 6 }]
    Fresh {} errands ∧ Fresh {} fewer ∧
      Only (fun ask => ask.key?.all fun key => decide (key = .ints 1 1)) errands fewer ∧
      Only (fun ask => ask.user = 1) errands fewer ∧
      (answers (fun ask => ask.key? = some (.ints 1 1)) {} fewer).map Answer.unnamed =
        (answers (fun ask => ask.key? = some (.ints 1 1)) {} errands).map Answer.unnamed ∧
      (after {} fewer).rowsOf (.ints 1 1) = (after {} errands).rowsOf (.ints 1 1) ∧
      (answers (fun ask => ask.user = 1) {} fewer).map Answer.unnamed =
        (answers (fun ask => ask.user = 1) {} errands).map Answer.unnamed := by
  intro naive cancelled errands fewer
  have hwhole : Ledger.Whole {} [] := ⟨rfl, rfl, .nil, by simp⟩
  have hfresh : Fresh {} errands := by decide +kernel
  have hfresh' : Fresh {} fewer := by decide +kernel
  have hkey : Only (fun ask => ask.key?.all fun key => decide (key = .ints 1 1)) errands fewer := rfl
  have huser : Only (fun ask => ask.user = 1) errands fewer := rfl
  obtain ⟨hkeys, husers⟩ := keys_and_users_apart hwhole hfresh hfresh'
  obtain ⟨hanswers, hrows⟩ := hkeys 1 1 hkey
  exact ⟨hfresh, hfresh', hkey, huser, hanswers, hrows, husers 1 huser⟩

end Errand
end Worklog
