import Worklog.Text.Utf8

namespace Worklog.Encoding

/-- The order of the bytes of a unit. -/
inductive Order where
  | big
  | little
  deriving DecidableEq, Repr

/-- How bytes become characters. -/
inductive Form where
  | utf8
  | utf16 (order : Order)
  | utf32 (order : Order)
  deriving DecidableEq, Repr

/-- Tells the encoding from the first bytes: where the zero bytes stand tells units of 16 and of 32 bits from
    UTF-8. -/
def guess : List Nat → Form
  | 0 :: 0 :: _ :: _ :: _ => .utf32 .big
  | 0 :: _ :: _ :: _ :: _ => .utf16 .big
  | _ :: 0 :: 0 :: 0 :: _ => .utf32 .little
  | _ :: 0 :: _ :: _ :: _ => .utf16 .little
  | [0, _] => .utf16 .big
  | [_, 0] => .utf16 .little
  | _ => .utf8

/-- The number that the bytes of a unit are. -/
def value (order : Order) (bytes : List Nat) : Nat :=
  (match order with
    | .big => bytes
    | .little => bytes.reverse).foldl (fun n b => n * 0x100 + b) 0

/-- Groups bytes into units; a rest that fills no unit makes the whole unreadable. -/
def units? (order : Order) (size : Nat) (bytes : List Nat) : Option (List Nat) :=
  match bytes with
  | [] => some []
  | b :: rest =>
    if rest.length + 1 < size ∨ size = 0 then none
    else (units? order size ((b :: rest).drop size)).map
      (value order ((b :: rest).take size) :: ·)
  termination_by bytes.length
  decreasing_by
    simp only [List.length_drop, List.length_cons]
    omega

/-- Joins the pairs among units of 16 bits. A half without its partner is replaced. -/
def joinUnits : List Nat → List Char
  | high :: low :: rest =>
    if 0xd800 ≤ high ∧ high < 0xdc00 ∧ 0xdc00 ≤ low ∧ low < 0xe000 then
      Char.ofNat (0x10000 + (high - 0xd800) * 0x400 + (low - 0xdc00)) :: joinUnits rest
    else single high :: joinUnits (low :: rest)
  | [unit] => [single unit]
  | [] => []
where
  /-- The character of a unit that is no part of a pair. -/
  single (unit : Nat) : Char :=
    if 0xd800 ≤ unit ∧ unit < 0xe000 then Utf8.replacement else Char.ofNat unit

/-- The characters of units of 32 bits; numbers beyond those of characters are unreadable. -/
def wideChars? (units : List Nat) : Option (List Char) :=
  if units.all (· < 0x110000) then some (units.map joinUnits.single) else none

/-- The characters without the mark that may come first. -/
def dropMark : List Char → List Char
  | '\ufeff' :: rest => rest
  | cs => cs

/-- The characters of bytes, if they can be read. -/
def decode? (bytes : List Nat) : Option (List Char) :=
  match guess bytes with
  | .utf8 => some (dropMark (Utf8.decode bytes))
  | .utf16 order => (units? order 2 bytes).map joinUnits
  | .utf32 order => (units? order 4 bytes).bind wideChars?

end Worklog.Encoding
