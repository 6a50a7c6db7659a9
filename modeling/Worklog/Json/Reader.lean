import Worklog.Json
import Worklog.Text.Digits

namespace Worklog.Json

/-- Why a text is no JSON. -/
inductive Fault where
  /-- Something else was expected at a place. While a text is read, a place is the number of characters
      that are left. -/
  | misplaced (place : Nat)
  /-- The text goes beyond what is read: arrays and objects are nested too deep, or an integer has too many
      digits. -/
  | tooDeep
  deriving DecidableEq, Repr

/-- The four characters that may stand between tokens. -/
def isGap (c : Char) : Bool := c = ' ' || c = '\n' || c = '\r' || c = '\t'

/-- The text after the blanks at its front. -/
def skipGap (cs : List Char) : List Char := cs.dropWhile isGap

/-- A code unit that opens or closes a surrogate pair. -/
def isHigh (unit : Nat) : Bool := 0xd800 ≤ unit && unit < 0xdc00

def isLow (unit : Nat) : Bool := 0xdc00 ≤ unit && unit < 0xe000

/-- The character of a surrogate pair. -/
def joinPair (high low : Nat) : Char :=
  Char.ofNat (0x10000 + (high - 0xd800) * 0x400 + (low - 0xdc00))

/-- The character that a short escape stands for. -/
def shortEscape? : Char → Option Char
  | '"' => some '"'
  | '\\' => some '\\'
  | '/' => some '/'
  | 'b' => some (Char.ofNat 8)
  | 'f' => some (Char.ofNat 12)
  | 'n' => some '\n'
  | 'r' => some '\r'
  | 't' => some '\t'
  | _ => none

/-- What a string literal holds: its characters, whether all of them are characters, and the text
    after it. -/
structure Scanned where
  chars : List Char
  whole : Bool
  rest : List Char

/-- Puts a character in front. -/
def Scanned.push (c : Char) (s : Scanned) : Scanned := { s with chars := c :: s.chars }

/-- Puts an unpaired surrogate in front. -/
def Scanned.spoil (s : Scanned) : Scanned := { s with chars := '\ufffd' :: s.chars, whole := false }

/-- The code unit of four hexadecimal digits. -/
def unit? (a b c d : Char) : Option Nat := Digits.hex? [a, b, c, d]

/-- Puts the high surrogate that waits for its partner, if any, in front: it stays unpaired. -/
def Scanned.settle (pending : Option Nat) (s : Scanned) : Scanned :=
  if pending.isSome then s.spoil else s

/-- Reads a string literal after its opening quote. `opening` is the place of that quote, and
    `pending` the high surrogate just read, which a low one completes to a character. -/
def scan (opening : Nat) (pending : Option Nat) : List Char → Except Nat Scanned
  | [] => .error opening
  | '"' :: rest => .ok (Scanned.settle pending ⟨[], true, rest⟩)
  | ['\\'] => .error opening
  | '\\' :: 'u' :: a :: b :: c :: d :: rest =>
    if rest = [] then .error 5
    else match unit? a b c d with
      | none => .error (rest.length + 5)
      | some unit =>
        if isLow unit then
          match pending with
          | some high => Scanned.push (joinPair high unit) <$> scan opening none rest
          | none => Scanned.spoil <$> scan opening none rest
        else if isHigh unit then
          Scanned.settle pending <$> scan opening (some unit) rest
        else (Scanned.settle pending ∘ Scanned.push (Char.ofNat unit)) <$> scan opening none rest
  | '\\' :: c :: rest =>
    if c = 'u' then .error (rest.length + 1)
    else match shortEscape? c with
      | some e => (Scanned.settle pending ∘ Scanned.push e) <$> scan opening none rest
      | none => .error (rest.length + 2)
  | c :: rest =>
    if c.toNat < 0x20 then .error (rest.length + 1)
    else (Scanned.settle pending ∘ Scanned.push c) <$> scan opening none rest

/-- The digits at the front and the text after them. -/
def spanDigits (cs : List Char) : List Char × List Char :=
  (cs.takeWhile Char.isDigit, cs.dropWhile Char.isDigit)

/-- The digits of a fraction, if a point with a digit follows. -/
def readFraction (cs : List Char) : List Char × List Char :=
  match cs with
  | '.' :: rest => if (spanDigits rest).1.isEmpty then ([], cs) else spanDigits rest
  | _ => ([], cs)

/-- The exponent, if a complete one follows. -/
def readExponent (cs : List Char) : Option Int × List Char :=
  match cs with
  | mark :: rest =>
    if mark = 'e' ∨ mark = 'E' then
      let (negative, digits) := match rest with
        | '-' :: r => (true, r)
        | '+' :: r => (false, r)
        | r => (false, r)
      let (run, tail) := spanDigits digits
      if run.isEmpty then (none, cs)
      else
        let n : Int := Nat.ofDigitChars 10 run 0
        (some (if negative then -n else n), tail)
    else (none, cs)
  | [] => (none, cs)

/-- Reads a number after its sign; a leading zero stands alone. An integer has at most `limit` digits, and
    `place` is where the number begins. -/
def readNumber (limit : Option Nat) (place : Nat) (negative : Bool) (cs : List Char) :
    Except Fault (Json × List Char) :=
  let (whole, rest) := match cs with
    | '0' :: rest => (['0'], rest)
    | _ => spanDigits cs
  if whole.isEmpty then .error (.misplaced place)
  else
    let (part, rest) := readFraction rest
    let (exponent, rest) := readExponent rest
    if part.isEmpty ∧ exponent.isNone then
      if limit.any (· < whole.length) then .error .tooDeep
      else
        let n : Int := Nat.ofDigitChars 10 whole 0
        .ok (.int (if negative then -n else n), rest)
    else
      let mantissa := Nat.ofDigitChars 10 (whole ++ part) 0
      .ok (.real (Double.ofDecimal negative mantissa (exponent.getD 0 - part.length)), rest)

/-- The words that are values. -/
def words : List (List Char × Json) :=
  [("null".toList, .null), ("true".toList, .bool true), ("false".toList, .bool false),
    ("NaN".toList, .real .nan), ("Infinity".toList, .real (.infinite false)),
    ("-Infinity".toList, .real (.infinite true))]

/-- Reads a word or a number. -/
def readScalar (limit : Option Nat) (cs : List Char) : Except Fault (Json × List Char) :=
  match words.find? (fun w => decide (w.1 <+: cs)) with
  | some (w, v) => .ok (v, cs.drop w.length)
  | none =>
    match cs with
    | '-' :: rest => readNumber limit cs.length true rest
    | _ => readNumber limit cs.length false cs

/-- Reads a string after its opening quote. -/
def readString (opening : Nat) (cs : List Char) : Except Fault Scanned :=
  (scan opening none cs).mapError .misplaced

/-- Reads the name of a member with its colon. -/
def readName (cs : List Char) : Except Fault (String × List Char) :=
  match cs with
  | '"' :: rest => do
    let s ← readString cs.length rest
    match skipGap s.rest with
    | ':' :: rest => .ok (String.ofList s.chars, skipGap rest)
    | rest => .error (.misplaced rest.length)
  | _ => .error (.misplaced cs.length)

mutual

/-- Reads a value whose first character is at the front. Integers have at most `limit` digits, and `depth`
    is how much deeper arrays and objects may be nested. -/
def readValue (limit : Option Nat) (depth : Nat) : Nat → List Char → Except Fault (Json × List Char)
  | 0, cs => .error (.misplaced cs.length)
  | fuel + 1, cs =>
    match cs, depth with
    | '"' :: rest, _ => do
      let s ← readString cs.length rest
      .ok (if s.whole then .str (String.ofList s.chars) else .broken, s.rest)
    | '[' :: _, 0 | '\x7b' :: _, 0 => .error .tooDeep
    | '[' :: rest, depth + 1 =>
      match skipGap rest with
      | ']' :: rest => .ok (.arr [], rest)
      | rest => do
        let (items, rest) ← readItems limit depth fuel rest
        .ok (.arr items, rest)
    | '\x7b' :: rest, depth + 1 =>
      match skipGap rest with
      | '\x7d' :: rest => .ok (.obj [], rest)
      | rest => do
        let (members, rest) ← readMembers limit depth fuel [] rest
        .ok (.obj members, rest)
    | _, _ => readScalar limit cs

/-- Reads the items of an array up to its bracket. -/
def readItems (limit : Option Nat) (depth : Nat) : Nat → List Char → Except Fault (List Json × List Char)
  | 0, cs => .error (.misplaced cs.length)
  | fuel + 1, cs => do
    let (v, rest) ← readValue limit depth fuel cs
    match skipGap rest with
    | ']' :: rest => .ok ([v], rest)
    | ',' :: rest => do
      let (items, rest) ← readItems limit depth fuel (skipGap rest)
      .ok (v :: items, rest)
    | rest => .error (.misplaced rest.length)

/-- Reads the members of an object up to its brace. After a comma another name must come. -/
def readMembers (limit : Option Nat) (depth : Nat) : Nat → List (String × Json) → List Char →
    Except Fault (List (String × Json) × List Char)
  | 0, _, cs => .error (.misplaced cs.length)
  | fuel + 1, members, cs => do
    let (name, rest) ← readName cs
    let (v, rest) ← readValue limit depth fuel rest
    let members := insert name v members
    match skipGap rest with
    | '\x7d' :: rest => .ok (members, rest)
    | ',' :: rest => readMembers limit depth fuel members (skipGap rest)
    | rest => .error (.misplaced rest.length)

end

/-- Reads one value between blanks, which must be the whole text. -/
def readDocument (limit : Option Nat) (depth : Nat) (cs : List Char) : Except Fault Json := do
  let (v, rest) ← readValue limit depth (2 * cs.length + 2) (skipGap cs)
  match skipGap rest with
  | [] => .ok v
  | rest => .error (.misplaced rest.length)

/-- The fault with its place counted from the start of a text of `total` characters. -/
def Fault.fromStart (total : Nat) : Fault → Fault
  | misplaced place => misplaced (total - place)
  | tooDeep => tooDeep

/-- How many digits the integers of a text from outside may have. -/
def greatestDigits : Nat := 4300

/-- Reads characters, nested at most to a depth; the place of a fault is its position, counted in
    characters from 0. Beside the standard grammar, the names `NaN`, `Infinity` and `-Infinity` are
    numbers. -/
def parseChars (limit : Option Nat) (depth : Nat) (cs : List Char) : Except Fault Json :=
  (readDocument limit depth cs).mapError (Fault.fromStart cs.length)

/-- Reads a text of any depth with integers of any length. -/
def parse (s : String) : Except Fault Json := parseChars none s.length s.toList

end Worklog.Json
