import Worklog.Text.Blank
import Worklog.Text.Decimal
import Worklog.Text.Quoted

namespace Worklog.Numeral

/-- A text that is no numeral in a base. -/
structure Unreadable where
  base : Nat
  text : String
  deriving DecidableEq, Repr

/-- The wording for an unreadable text, of which at most 200 characters are shown. -/
def Unreadable.message (u : Unreadable) : String :=
  "invalid literal for int() with base " ++ Digits.text u.base ++ ": " ++
    String.ofList ((Quoted.quoted u.text).toList.take 200)

/-- The character with blanks beyond ASCII as a plain one and digits of all scripts as those of
    ASCII. -/
def plain (c : Char) : Char :=
  if c.toNat < 0x7f then c
  else if Blank.isBlank c then ' '
  else (Decimal.value? c).elim c Nat.digitChar

/-- Blanks that may stand around a numeral. -/
def isGap (c : Char) : Bool := c == ' ' || (9 ≤ c.toNat && c.toNat ≤ 13)

/-- The value of a digit in a base. -/
def digit? (base : Nat) (c : Char) : Option Nat := (Digits.hexValue? c).filter (· < base)

/-- Reads the digits that follow a first one, which has the value `n`. -/
def more? (base : Nat) (n : Nat) : List Char → Option Nat
  | [] => some n
  | '_' :: c :: rest => (digit? base c).bind fun d => more? base (n * base + d) rest
  | c :: rest => (digit? base c).bind fun d => more? base (n * base + d) rest

/-- Reads digits. -/
def digits? (base : Nat) : List Char → Option Nat
  | [] => none
  | c :: rest => (digit? base c).bind fun d => more? base d rest

/-- Drops the mark of base 16, after which one underscore may stand. -/
def dropMark (base : Nat) (cs : List Char) : List Char :=
  match cs with
  | '0' :: x :: rest =>
    if base = 16 ∧ (x = 'x' ∨ x = 'X') then
      if rest.head? = some '_' then rest.drop 1 else rest
    else cs
  | _ => cs

/-- The integer that a text denotes: digits of any script with single underscores between them, after a sign
    or not, with blanks around them. In base 16 it may begin with `0x`. It may be of any length: a limit on its
    digits is a setting of the process. -/
def read (base : Nat) (s : String) : Except Unreadable Int :=
  let (negative, cs) := Digits.splitSign (Blank.trim isGap (s.toList.map plain))
  match digits? base (dropMark base cs) with
  | some n => .ok (if negative then -n else n)
  | none => .error ⟨base, s⟩

end Worklog.Numeral
