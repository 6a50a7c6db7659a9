import Worklog.Field.Issue
import Worklog.Json
import Worklog.Text.Blank

namespace Worklog.Integer

/-- Least and greatest integer of 64 bits. -/
def least64 : Int := -9223372036854775808

def greatest64 : Int := 9223372036854775807

/-- The integer has at most 64 bits. -/
def fits64 (n : Int) : Bool := least64 ≤ n && n ≤ greatest64

/-- A plus, which no minus may follow, is dropped. -/
def dropPlus? : List Char → Option (List Char)
  | '+' :: '-' :: _ => none
  | '+' :: rest => some rest
  | cs => some cs

/-- What begins a number that has no leading zeros. -/
def isLead (c : Char) : Bool := c == '-' || ('1' ≤ c && c ≤ '9')

/-- What is left behind leading zeros, among which underscores do not count. `last` is the zero or
    underscore before; it stays at the end of the text and before a point. -/
def afterZeros? (last : Char) : List Char → Option (List Char)
  | [] => some [last]
  | c :: rest =>
    if c = '0' ∨ c = '_' then afterZeros? c rest
    else if c = '.' then some (last :: c :: rest)
    else if isLead c then some (c :: rest)
    else none

/-- Drops leading zeros. -/
def dropZeros? : List Char → Option (List Char)
  | '0' :: rest => afterZeros? '0' rest
  | c :: rest => if isLead c then some (c :: rest) else none
  | [] => none

/-- Drops a fraction that consists of zeros. -/
def dropZeroFraction (cs : List Char) : List Char :=
  let whole := cs.takeWhile (· != '.')
  match cs.dropWhile (· != '.') with
  | '.' :: '0' :: zeros => if zeros.all (· == '0') then whole else cs
  | _ => cs

/-- Two underscores stand side by side. -/
def hasDouble : List Char → Bool
  | '_' :: '_' :: _ => true
  | _ :: rest => hasDouble rest
  | [] => false

/-- Drops single underscores inside the text. -/
def joinGroups (cs : List Char) : List Char :=
  if cs.head? = some '_' ∨ cs.getLast? = some '_' ∨ hasDouble cs then cs else cs.filter (· != '_')

/-- Reads digits without leading zeros, after a minus or not. -/
def canonical? (cs : List Char) : Option Int :=
  let (negative, digits) := match cs with
    | '-' :: digits => (true, digits)
    | _ => (false, cs)
  if digits.isEmpty ∨ ¬digits.all Char.isDigit ∨ (1 < digits.length ∧ digits.head? = some '0') then
    none
  else
    let n : Int := Nat.ofDigitChars 10 digits 0
    some (if negative then -n else n)

/-- The text without blanks around it, a plus, leading zeros, a fraction of zeros and underscores. -/
def clean? (s : List Char) : Option (List Char) := do
  let unsigned ← dropPlus? (Blank.trim Blank.isWhite s)
  let significant ← dropZeros? unsigned
  some (joinGroups (dropZeroFraction significant))

/-- How many digits are read; a minus counts as one of them. -/
def greatestLength : Nat := 4300

/-- The text begins with more digits than are read. Behind a zero there is nothing to read. -/
def isTooLong (cs : List Char) : Bool :=
  let digits := if cs.head? = some '-' then cs.drop 1 else cs
  let run := digits.takeWhile Char.isDigit
  digits.head? ≠ some '0' && greatestLength < cs.length - digits.length + run.length

/-- Reads the text of an integer. It may have blanks around it, a sign, leading zeros, single underscores
    between digits, and a fraction of zeros only. A minus may also stand behind the leading zeros. -/
def parse (s : String) : Except Problem Int :=
  match clean? s.toList with
  | none => .error .integerText
  | some cs =>
    if isTooLong cs then .error .integerSize
    else match canonical? cs with
      | some n => .ok n
      | none => .error .integerText

/-- The integer that a double without a fraction is. -/
def ofDouble : Double → Except Problem Int
  | .finite negative m e =>
    if (Double.fractionPart m e).1 ≠ 0 then .error .integerFraction
    else
      let n := Double.truncate (.finite negative m e)
      if least64 < n ∧ n < greatest64 then .ok n else .error .integerSize
  | _ => .error .infinite

/-- Reads an integer field. -/
def ofJson : Json → Except Problem Int
  | .int n => .ok n
  | .bool b => .ok (if b then 1 else 0)
  | .real d => ofDouble d
  | .str s => parse s
  | .broken => .error .integerText
  | _ => .error .integerType

end Worklog.Integer
