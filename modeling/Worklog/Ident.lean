import Worklog.Json
import Worklog.Store.Number

namespace Worklog

/-- What names a user or a task. -/
inductive Ident where
  | int (n : Int)
  | flag (b : Bool)
  | real (d : Double)
  | text (s : String)
  /-- Nobody is named. -/
  | absent
  deriving DecidableEq, Repr

namespace Ident

instance : Coe Int Ident := ⟨int⟩

/-- The identifier as it was given. -/
def json : Ident → Json
  | int n => .int n
  | flag b => .bool b
  | real d => .real d
  | text s => .str s
  | absent => .null

/-- An identifier or null. -/
def json? (i : Option Ident) : Json := i.elim .null json

/-- A stored number as an identifier. -/
def ofNumber : StoredNumber → Ident
  | .int n => int n
  | .real d => real d

/-- The identifier as the database stores it: a number if it looks like one. What is not a number at all is
    stored as nothing. -/
def stored : Ident → Option Ident
  | int n => some (int n)
  | flag b => some (int (if b then 1 else 0))
  | real .nan => none
  | real d => some (ofNumber (StoredNumber.ofDouble d))
  | text s => some ((StoredNumber.ofText? s).elim (text s) ofNumber)
  | absent => none

/-- A number as a quotient; one without bound has no denominator, and a text is no number. -/
def ratio? : Ident → Option (Int × Nat)
  | int n => some (n, 1)
  | flag b => some (if b then 1 else 0, 1)
  | real d => some d.ratio
  | text _ | absent => none

/-- Identifiers are the same when they are the same number or the same text. -/
def same (a b : Ident) : Bool :=
  match a.ratio?, b.ratio? with
  | some x, some y => x.1 * y.2 == y.1 * x.2 && decide (0 ≤ x.1 ↔ 0 ≤ y.1)
  | _, _ => a == b

/-- Whether an identifier comes before another or beside it: numbers by size, then texts. -/
def atMost (a b : Ident) : Bool :=
  match a.ratio?, b.ratio? with
  | some x, some y => x.1 * y.2 ≤ y.1 * x.2
  | some _, none => true
  | none, some _ => false
  | none, none =>
    match a, b with
    | text s, text t => decide (s ≤ t)
    | _, _ => true

theorem same_int (m n : Int) : (int m).same (int n) = decide (m = n) := by
  by_cases h : m = n <;> simp [same, ratio?, h]

theorem atMost_int (m n : Int) : (int m).atMost (int n) = decide (m ≤ n) := by
  simp [atMost, ratio?]

end Ident
end Worklog
