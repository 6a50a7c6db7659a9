import Worklog.Schema.Change
import Worklog.Text.Numeral
import Worklog.Text.Separated
import Worklog.Text.Word

namespace Worklog.Revision

/-- Where a database is: it is empty, or has been brought to the newest revision. -/
inductive Place where
  | empty
  | newest
  deriving DecidableEq, Repr

/-- Why a place cannot be gone to. -/
inductive Unreachable where
  /-- No revision has the name. -/
  | unknown (name : String)
  /-- There are not as many revisions from here. -/
  | tooFew (written : String) (count : Nat)
  /-- There are not as many revisions from a symbol on the way back. -/
  | walkedOut
  /-- The database would have to go forward on the way back. -/
  | ahead (name : String)
  /-- Nothing is named, or a step leads to nothing. -/
  | nowhere
  /-- A way cannot start where there is no revision. -/
  | noRevision
  /-- A range of more than two places. -/
  | manyPlaces
  /-- A range, where the start is known already. -/
  | needlessRange
  /-- Statements for the way back need to know from where. -/
  | noStart
  deriving DecidableEq, Repr

/-- The wording of a refusal. -/
def Unreachable.message : Unreachable → String
  | unknown name => "Can't locate revision identified by '" ++ name ++ "'"
  | tooFew written count =>
    "Relative revision " ++ written ++ " didn't produce " ++ Digits.text count ++ " migrations"
  | walkedOut => "Walked too far"
  | ahead name =>
    "Destination " ++ name ++ " is not a valid downgrade target from current head(s)"
  | nowhere => ""
  | noRevision => "'NoneType' object has no attribute 'revision'"
  | manyPlaces => "too many values to unpack (expected 2)"
  | needlessRange => "Range revision not allowed"
  | noStart => "downgrade with --sql requires <fromrev>:<torev>"

/-- A revision goes by its name, which may be cut short. -/
def identify (name : String) : Except Unreachable Unit :=
  if name = "" then .error .nowhere
  else if name.toList.isPrefixOf initial.id.toList then .ok ()
  else .error (.unknown name)

/-- Cuts the label before the first `@` off. -/
def cutLabel (name : String) : Option String × String :=
  match Separated.cutFirst? '@' name.toList with
  | some (label, symbol) => (some (String.ofList label), String.ofList symbol)
  | none => (none, name)

/-- The place that an absolute name stands for: `base`, `head`, or the beginning of the name of a revision.
    An empty label is as good as none. -/
def find (name : String) : Except Unreachable Place := do
  let (label, symbol) := cutLabel name
  if label.getD "" ≠ "" then identify (label.getD "")
  if symbol = "base" then return .empty
  if symbol = "head" ∨ symbol = "heads" then return .newest
  identify symbol
  return .newest

/-- A number of revisions from a symbol, or from where the database is. -/
structure Relative where
  label : Option String
  symbol : Option String
  /-- The number as it is written, with its sign. -/
  written : String
  steps : Int
  deriving DecidableEq, Repr

namespace Relative

/-- Reads a symbol and a number at the front of a text. -/
def ofUnlabelled? (label : Option String) (cs : List Char) : Option Relative :=
  let symbol := cs.takeWhile Word.isPart
  match cs.dropWhile Word.isPart with
  | sign :: rest =>
    let digits := rest.takeWhile fun c => (Decimal.value? c).isSome
    let n : Int := digits.foldl (fun n c => 10 * n + (Decimal.value? c).getD 0) 0
    if digits.isEmpty ∨ ¬(sign = '+' ∨ sign = '-') then none
    else some ⟨label, if symbol.isEmpty then none else some (String.ofList symbol),
      String.ofList (sign :: digits), if sign = '-' then -n else n⟩
  | [] => none

/-- Reads a relative name after the shortest label with which there is one; `seen` is what stands
    before, the last character first. -/
def ofLabelled? (seen : List Char) : List Char → Option Relative
  | [] => none
  | c :: rest =>
    if c = '@' ∧ ¬seen.isEmpty then
      (ofUnlabelled? (some (String.ofList seen.reverse)) rest).or (ofLabelled? (c :: seen) rest)
    else if c = '\n' then none
    else ofLabelled? (c :: seen) rest

/-- Reads a relative name, with a label if that is possible. What follows it does not count. -/
def ofText? (name : String) : Option Relative :=
  (ofLabelled? [] name.toList).or (ofUnlabelled? none name.toList)

/-- The refusal for a number that is too large. -/
def tooFew (r : Relative) : Unreachable := .tooFew r.written r.steps.natAbs

end Relative

/-- Where a walk stands: outside the revisions, at the revision, or below it, where it has left them. -/
inductive Stand where
  | outside
  | inside
  | below
  deriving DecidableEq, Repr

namespace Stand

/-- The place of a database as the start of a walk. -/
def ofPlace : Place → Stand
  | .empty => outside
  | .newest => inside

/-- One step up. -/
def up? : Stand → Option Stand
  | outside => some inside
  | _ => none

/-- One step down. From outside it leads to the newest revision. -/
def down? : Stand → Option Stand
  | outside => some inside
  | inside => some below
  | below => none

/-- Several steps. -/
def walk? (step? : Stand → Option Stand) : Nat → Stand → Option Stand
  | 0, s => some s
  | n + 1, s => (step? s).bind (walk? step? n)

/-- Goes a signed number of steps from a place. -/
def go? (steps : Int) (p : Place) : Option Stand :=
  walk? (if 0 < steps then up? else down?) steps.natAbs (ofPlace p)

end Stand

/-- A step up from outside looks whether the revision belongs to the line of the label. -/
def checkLine (label : Option String) (steps : Int) (start : Place) : Except Unreachable Unit :=
  match label with
  | some label => if 0 < steps ∧ start = .empty then discard (find label) else .ok ()
  | none => .ok ()

/-- The place that an upgrade leads to by a relative name. -/
def raiseBy (here : Place) (r : Relative) : Except Unreachable Place :=
  match r.symbol with
  | some symbol => do
    let start ← find symbol
    checkLine r.label r.steps start
    if Stand.go? r.steps start = some .inside then .ok .newest else .error .nowhere
  | none =>
    if 0 < r.steps then do
      if let some label := r.label then discard (find label)
      if Stand.go? r.steps here = some .inside then .ok .newest else .error r.tooFew
    else .error (.tooFew (Digits.text r.steps) r.steps.natAbs)

/-- The place that an upgrade leads to. An upgrade to a place that has been passed changes nothing. -/
def raise (here : Place) (name : String) : Except Unreachable Place :=
  match Relative.ofText? name with
  | some r => raiseBy here r
  | none =>
    let (label, symbol) := cutLabel name
    if symbol = "base" then .ok here
    else match Numeral.read 10 symbol with
      | .ok (.negSucc _) => if label.isSome then .ok here else .error .nowhere
      | _ => find name

/-- The place that a downgrade leads to by a relative name. -/
def lowerBy (here : Place) (r : Relative) : Except Unreachable Place := do
  let stand ← match r.symbol with
    | some symbol =>
      let start ← find (if 0 ≤ r.steps then symbol else (r.label.elim "" (· ++ "@")) ++ symbol)
      checkLine r.label r.steps start
      (Stand.go? r.steps start).elim (.error .walkedOut) .ok
    | none =>
      if 0 ≤ r.steps then .error r.tooFew
      else match r.label, here with
        | none, .empty => .error r.tooFew
        | some _, .empty => .error .nowhere
        | some label, .newest => do
          discard (find label)
          discard (find (label ++ "@" ++ initial.id))
          (Stand.go? r.steps here).elim (.error r.tooFew) .ok
        | none, .newest => (Stand.go? r.steps here).elim (.error r.tooFew) .ok
  match stand with
  | .outside => .error .walkedOut
  | .inside => return .newest
  | .below => return .empty

/-- What follows the last label in a name. -/
def unlabelled (name : String) : String :=
  (Separated.cutLast? '@' name.toList).elim name fun cut => String.ofList cut.2

/-- The place that a downgrade leads to, which must not be ahead. -/
def lower (here : Place) (name : String) : Except Unreachable Place := do
  let place ← match Relative.ofText? name with
    | some r => lowerBy here r
    | none => find (unlabelled name)
  if here = .empty ∧ place = .newest then .error (.ahead name) else return place

/-- Splits the range `from:to`; a name without a colon has no start. -/
def range (name : String) : Except Unreachable (Option String × String) :=
  match Separated.parts ':' name.toList with
  | [start, stop] => .ok (some (String.ofList start), String.ofList stop)
  | [_] | [] => .ok (none, name)
  | _ => .error .manyPlaces

/-- The place where a range starts. -/
def start (name : String) : Except Unreachable Place := do
  if name = "base" then return .empty
  match ← find name with
  | .newest => return .newest
  | .empty => .error .noRevision

end Worklog.Revision
