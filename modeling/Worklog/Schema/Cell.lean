import Worklog.Schema
import Worklog.Store.Number

namespace Worklog

/-- A stored value. -/
inductive Cell where
  | null
  | int (n : Int)
  | real (d : Double)
  | text (s : String)
  deriving DecidableEq, Repr

namespace Cell

/-- The cell holds nothing. -/
def isNull : Cell → Bool
  | null => true
  | _ => false

/-- A cell that holds a number. -/
def ofNumber : StoredNumber → Cell
  | .int n => int n
  | .real d => real d

/-- The cell as a column keeps it. Text columns keep everything as text. -/
def fit (t : ColumnType) (c : Cell) : Cell :=
  match t, c with
  | .text, .int n | .bounded _, .int n => .text (Digits.text n)
  | .text, c | .bounded _, c => c
  | _, .text s => (StoredNumber.ofText? s).elim (.text s) ofNumber
  | _, .real d => ofNumber (StoredNumber.ofDouble d)
  | _, c => c

/-- The place of a kind of value among all kinds. -/
def rank : Cell → Nat
  | null => 0
  | int _ | real _ => 1
  | text _ => 2

/-- A number as a quotient. -/
def ratio : Cell → Int × Nat
  | int n => (n, 1)
  | real d => d.ratio
  | _ => (0, 1)

/-- Whether a cell comes before another or equals it: numbers before texts. -/
def atMost (a b : Cell) : Bool :=
  if a.rank ≠ b.rank then a.rank < b.rank
  else match a, b with
    | text s, text t => decide (s ≤ t)
    | _, _ => a.ratio.1 * b.ratio.2 ≤ b.ratio.1 * a.ratio.2

/-- Two cells hold the same value, though perhaps one as an integer and one as a real number. -/
def same (a b : Cell) : Bool := a.atMost b && b.atMost a

end Cell
end Worklog
