import Worklog.Report
import Worklog.Store.Ledger

namespace Worklog

/-- The id that stands for any. -/
def Uuid.blank : Uuid := .ofNat 0

/-- The interval without its id. -/
def Interval.unnamed (i : Interval) : Interval := { i with id := .blank }

/-- The row without its id. -/
def Row.unnamed (r : Row) : Row := { r with id := .blank }

def Violation.unnamed : Violation → Violation
  | endsBeforeStart _ => endsBeforeStart .blank
  | negativeLength _ => negativeLength .blank
  | what => what

def Cause.unnamed : Cause → Cause
  | violation what => violation what.unnamed
  | cause => cause

/-- Details without the id of an interval. -/
def Json.unnamed : Json → Json
  | .obj members => .obj (members.map fun m => if m.1 = "interval_id" then (m.1, .null) else m)
  | v => v

/-- The failure without the id of the interval that it is about. -/
def Failure.unnamed (f : Failure) : Failure :=
  ⟨f.cause.unnamed, { f.context with debug := f.context.debug.map Json.unnamed }⟩

/-- The fault without the id of the interval that it is about. -/
def Fault.unnamed : Fault → Fault
  | failure f => failure f.unnamed
  | fault => fault

/-- The answer of a call without the ids in it. -/
def unnamedAnswer {α : Type} (unnamed : α → α) (r : Except Fault α) : Except Fault α :=
  (r.map unnamed).mapError Fault.unnamed

theorem Fault.unnamed_withKey (user task : Option Ident) (f : Fault) :
    (f.withKey user task).unnamed = f.unnamed.withKey user task := by
  obtain ⟨⟨cause, context⟩⟩ | _ | _ | _ | _ | _ | _ := f
  · cases cause <;> rfl
  all_goals rfl

@[simp] theorem Row.unnamed_interval (r : Row) : r.unnamed.interval = r.interval.unnamed := rfl

/-- Two sequences of checks end alike if their parts do. -/
theorem mapError_bind_congr {ε δ α β : Type} {x y : Except ε α} {f g : α → Except ε β} {h : ε → δ}
    (hxy : x.mapError h = y.mapError h) (hfg : ∀ a, (f a).mapError h = (g a).mapError h) :
    (x >>= f).mapError h = (y >>= g).mapError h := by
  cases x with
  | error e =>
    cases y with
    | error e' => exact congrArg Except.error (Except.error.inj hxy)
    | ok b => cases hxy
  | ok a =>
    cases y with
    | error e => cases hxy
    | ok b =>
      obtain rfl := Except.ok.inj hxy
      exact hfg a

namespace Report

variable (w : Window) (now : Moment)

theorem clip_unnamed (i : Interval) :
    (clip i.unnamed w now).mapError Fault.unnamed = (clip i w now).mapError Fault.unnamed := by
  refine mapError_bind_congr rfl fun early => ?_
  cases early with
  | true => rfl
  | false =>
    refine mapError_bind_congr rfl fun meets => ?_
    cases meets with
    | false => rfl
    | true =>
      refine mapError_bind_congr rfl fun micros => ?_
      by_cases hnegative : micros < 0
      · simp only [hnegative, if_true]
        rfl
      · simp only [hnegative, if_false]

theorem totals_unnamed (is : List Interval) (rows : List TaskTime) :
    (totals w now rows (is.map Interval.unnamed)).mapError Fault.unnamed =
      (totals w now rows is).mapError Fault.unnamed := by
  induction is generalizing rows with
  | nil => rfl
  | cons i is ih =>
    refine mapError_bind_congr (clip_unnamed w now i) fun clipped => ?_
    cases clipped with
    | none => exact ih rows
    | some micros => exact mapError_bind_congr rfl fun rows => ih rows

/-- A report depends on the ids of its intervals only in what it says of a violation. -/
theorem aggregate_congr {is js : List Interval} (h : is.map Interval.unnamed = js.map Interval.unnamed) :
    (aggregate is w now).mapError Fault.unnamed = (aggregate js w now).mapError Fault.unnamed := by
  refine mapError_bind_congr ?_ fun rows => rfl
  rw [← totals_unnamed w now is, ← totals_unnamed w now js, h]

end Report
end Worklog
