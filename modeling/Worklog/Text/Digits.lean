namespace Worklog.Digits

/-- The last `width` decimal digits of a number, padded with zeros. -/
def fixed : Nat → Nat → List Char
  | 0, _ => []
  | width + 1, n => fixed width (n / 10) ++ [Nat.digitChar (n % 10)]

/-- The number that a run of digits denotes; `none` when anything else is among them. -/
def value? (cs : List Char) : Option Nat :=
  if cs.all Char.isDigit then some (Nat.ofDigitChars 10 cs 0) else none

/-- Reads exactly `width` digits from the front. -/
def take? (width : Nat) (cs : List Char) : Option Nat :=
  if (cs.take width).length = width then value? (cs.take width) else none

/-- An integer in decimal, with a minus sign below zero. -/
def ofInt : Int → List Char
  | .ofNat n => Nat.toDigits 10 n
  | .negSucc n => '-' :: Nat.toDigits 10 (n + 1)

/-- The text of an integer. -/
def text (n : Int) : String := String.ofList (ofInt n)

/-- Splits a sign off the front; `true` is a minus. -/
def splitSign : List Char → Bool × List Char
  | '-' :: rest => (true, rest)
  | '+' :: rest => (false, rest)
  | cs => (false, cs)

/-- The value of a hexadecimal digit in either case. -/
def hexValue? (c : Char) : Option Nat :=
  if c.isDigit then some (c.toNat - 48)
  else if 'a' ≤ c ∧ c ≤ 'f' then some (c.toNat - 87)
  else if 'A' ≤ c ∧ c ≤ 'F' then some (c.toNat - 55)
  else none

/-- The number that a run of hexadecimal digits denotes. -/
def hex? (cs : List Char) : Option Nat :=
  cs.foldlM (fun n c => (hexValue? c).map (16 * n + ·)) 0

/-- The last `width` hexadecimal digits of a number, in lower case. -/
def fixedHex : Nat → Nat → List Char
  | 0, _ => []
  | width + 1, n => fixedHex width (n / 16) ++ [Nat.digitChar (n % 16)]

end Worklog.Digits
