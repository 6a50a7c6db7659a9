import Worklog.Number.Places
import Worklog.Text.Shown

namespace Worklog.Log

/-- Why a template cannot be filled. -/
inductive TemplateProblem where
  /-- There are more conversions than values. -/
  | tooFew
  /-- There are more values than conversions. -/
  | tooMany
  /-- The template ends inside a conversion. -/
  | incomplete
  /-- The template ends inside the name of a member. -/
  | incompleteName
  /-- A conversion names its value, but the values have no names. -/
  | named
  /-- A conversion names its value, but the values of a list have no names. -/
  | namedInList
  | noMember (name : String)
  | unknown (conversion : Char) (position : Nat)
  | notNumber (conversion : Char) (kind : String)
  | notInteger (conversion : Char) (kind : String)
  | notReal (kind : String)
  | notCharacter
  | characterRange
  | starKind
  /-- A written width or precision is beyond its limit. -/
  | widthRange
  | precisionRange
  /-- A width or precision among the values is beyond its limit. -/
  | starWidthRange
  | starPrecisionRange
  /-- More digits are asked of an integer than can be counted. -/
  | digitsRange
  /-- No double comes near an integer. -/
  | realRange
  | infiniteInteger
  | nanInteger
  /-- The text would be too long to be kept. -/
  | memory
  deriving DecidableEq, Repr

/-- The character as a message about templates shows it: only those of ASCII show. -/
def TemplateProblem.shown (c : Char) : Char :=
  if 0x1f ≤ c.toNat ∧ c.toNat ≤ 0x7e then c else '?'

/-- The wording of a problem. -/
def TemplateProblem.message : TemplateProblem → String
  | tooFew => "not enough arguments for format string"
  | tooMany => "not all arguments converted during string formatting"
  | incomplete => "incomplete format"
  | incompleteName => "incomplete format key"
  | named => "format requires a mapping"
  | namedInList => "list indices must be integers or slices, not str"
  | noMember name => Quoted.quoted name
  | unknown c position =>
    "unsupported format character '" ++ String.singleton (shown c) ++ "' (0x" ++
      String.ofList (Nat.toDigits 16 c.toNat) ++ ") at index " ++ Digits.text position
  | notNumber c kind =>
    "%" ++ String.singleton c ++ " format: a real number is required, not " ++ kind
  | notInteger c kind =>
    "%" ++ String.singleton c ++ " format: an integer is required, not " ++ kind
  | notReal kind => "must be real number, not " ++ kind
  | notCharacter => "%c requires int or char"
  | characterRange => "%c arg not in range(0x110000)"
  | starKind => "* wants int"
  | widthRange => "width too big"
  | precisionRange => "precision too big"
  | starWidthRange => "Python int too large to convert to C ssize_t"
  | starPrecisionRange => "Python int too large to convert to C int"
  | digitsRange => "precision too large"
  | realRange => "int too large to convert to float"
  | infiniteInteger => "cannot convert float infinity to integer"
  | nanInteger => "cannot convert float NaN to integer"
  | memory => ""

/-- What fills a template. -/
inductive Filling where
  /-- Values in their order. -/
  | several (values : List Json)
  /-- One value, from which members may be taken if it is a collection. -/
  | one (value : Json)

/-- The filling with a list of values; a single object with members stands for itself. -/
def Filling.ofValues : List Json → Filling
  | [.obj (m :: members)] => one (.obj (m :: members))
  | values => several values

/-- There is nothing to fill in, or nothing but an empty value. -/
def Filling.isEmpty : Filling → Bool
  | several values => values.isEmpty
  | one value => value.isEmpty

namespace Template

/-- How a value is laid out. -/
structure Layout where
  left : Bool := false
  plus : Bool := false
  blank : Bool := false
  alternate : Bool := false
  zeros : Bool := false
  width : Nat := 0
  precision : Option Nat := none

/-- A text brought to the width of its layout. -/
def padded (c : Layout) (text : List Char) : List Char :=
  let gap := List.replicate (c.width - text.length) ' '
  if c.left then text ++ gap else gap ++ text

/-- The sign that goes before a number. -/
def sign (c : Layout) (negative : Bool) : List Char :=
  if negative then ['-'] else if c.plus then ['+'] else if c.blank then [' '] else []

/-- A number brought to the width of its layout; zeros go after the sign. -/
def paddedNumber (c : Layout) (negative : Bool) (lead digits : List Char) : List Char :=
  let front := sign c negative ++ lead
  if c.zeros && !c.left then
    front ++ List.replicate (c.width - front.length - digits.length) '0' ++ digits
  else padded c (front ++ digits)

/-- The greatest number of digits that an integer can be asked for. -/
def greatestDigits : Nat := 2147483644

/-- An integer in a base. -/
def integer (c : Layout) (base : Nat) (lead : List Char) (n : Int) :
    Except TemplateProblem (List Char) :=
  let digits := Nat.toDigits base n.natAbs
  if greatestDigits < c.precision.getD 0 then .error .digitsRange
  else .ok (paddedNumber c (n < 0) (if c.alternate then lead else [])
    (List.replicate (c.precision.getD 0 - digits.length) '0' ++ digits))

/-- A double, laid out by `finite` when it is finite. -/
def real (c : Layout) (finite : Nat → Int → List Char) : Double → List Char
  | .finite negative m e => paddedNumber c negative [] (finite m e)
  | .infinite negative => padded c (sign c negative ++ "inf".toList)
  | .nan => padded c (sign c false ++ "nan".toList)

/-- The double that a value is. -/
def asReal : Json → Except TemplateProblem Double
  | .int n => match Double.ofRatio n 1 with
    | .infinite _ => .error .realRange
    | d => .ok d
  | .bool b => .ok (Double.ofRatio (if b then 1 else 0) 1)
  | .real d => .ok d
  | v => .error (.notReal v.kindName)

/-- The integer that a value is, without its fraction. -/
def asNumber (conversion : Char) : Json → Except TemplateProblem Int
  | .int n => .ok n
  | .bool b => .ok (if b then 1 else 0)
  | .real .nan => .error .nanInteger
  | .real (.infinite _) => .error .infiniteInteger
  | .real d => .ok d.truncate
  | v => .error (.notNumber conversion v.kindName)

/-- The integer that a value is. -/
def asInteger (conversion : Char) : Json → Except TemplateProblem Int
  | .int n => .ok n
  | .bool b => .ok (if b then 1 else 0)
  | v => .error (.notInteger conversion v.kindName)

/-- The character that a value is. -/
def asCharacter : Json → Except TemplateProblem Char
  | .int n => if 0 ≤ n ∧ n < 0x110000 then .ok (Char.ofNat n.toNat) else .error .characterRange
  | .bool b => .ok (Char.ofNat (if b then 1 else 0))
  | .str s => match s.toList with
    | [c] => .ok c
    | _ => .error .notCharacter
  | _ => .error .notCharacter

/-- A text cut to the precision of its layout. -/
def cut (c : Layout) (text : List Char) : List Char :=
  match c.precision with
  | some n => text.take n
  | none => text

/-- Characters beyond ASCII as escapes. -/
def escaped (cs : List Char) : List Char :=
  cs.flatMap fun c =>
    if c.toNat < 0x80 then [c]
    else if c.toNat < 0x100 then '\\' :: 'x' :: Digits.fixedHex 2 c.toNat
    else if c.toNat < 0x10000 then '\\' :: 'u' :: Digits.fixedHex 4 c.toNat
    else '\\' :: 'U' :: Digits.fixedHex 8 c.toNat

/-- No double has more places than this. -/
def greatestPlaces : Nat := 1100

/-- The text of a value under the letter of its conversion. -/
def render (c : Layout) (conversion : Char) (position : Nat) (v : Json) :
    Except TemplateProblem (List Char) :=
  let places := c.precision.getD 6
  let exact := min places greatestPlaces
  let upper := fun cs : List Char => cs.map Char.toUpper
  match conversion with
  | 's' => .ok (padded c (cut c (Shown.text v).toList))
  | 'r' => .ok (padded c (cut c (Shown.inner v)))
  | 'a' => .ok (padded c (cut c (escaped (Shown.inner v))))
  | 'd' | 'i' | 'u' => (asNumber conversion v).bind (integer c 10 [])
  | 'x' => (asInteger conversion v).bind (integer c 16 ['0', 'x'])
  | 'X' => ((asInteger conversion v).bind (integer c 16 ['0', 'X'])).map upper
  | 'o' => (asInteger conversion v).bind (integer c 8 ['0', 'o'])
  | 'c' => (asCharacter v).map fun ch => padded c [ch]
  | 'f' | 'F' => (asReal v).map fun d =>
    let text := real c (fun m e =>
      let (num, den) := Double.quotient m e
      Double.fixedPlaces exact c.alternate num den ++ List.replicate (places - exact) '0') d
    if conversion = 'F' then upper text else text
  | 'e' | 'E' => (asReal v).map fun d =>
    let text := real c (Double.scientific places c.alternate) d
    if conversion = 'E' then upper text else text
  | 'g' | 'G' => (asReal v).map fun d =>
    let text := real c (Double.general places c.alternate) d
    if conversion = 'G' then upper text else text
  | _ => .error (.unknown conversion position)

/-- Sets the flag that a character stands for. -/
def flag? (c : Layout) : Char → Option Layout
  | '-' => some { c with left := true }
  | '+' => some { c with plus := true }
  | ' ' => some { c with blank := true }
  | '#' => some { c with alternate := true }
  | '0' => some { c with zeros := true }
  | _ => none

/-- A width or a precision: a number, or a star for the next value. -/
inductive Extent where
  | fixed (n : Nat)
  | star
  deriving DecidableEq, Repr

/-- The member that a conversion names. -/
inductive Member where
  | name (s : String)
  /-- The name does not end. -/
  | unclosed
  deriving DecidableEq, Repr

/-- A piece of a template. -/
inductive Piece where
  | plain (c : Char)
  /-- A conversion with the member that it names, if any, with its letter, and where that stands;
      without a letter the template ends. -/
  | conversion (member : Option Member) (flags : Layout) (width precision : Option Extent)
      (letter : Option (Char × Nat))

/-- Reads a width or a precision. -/
def readExtent : List Char → Option Extent × List Char
  | '*' :: rest => (some .star, rest)
  | cs =>
    let digits := cs.takeWhile Char.isDigit
    (if digits.isEmpty then none else some (.fixed (Nat.ofDigitChars 10 digits 0)),
      cs.dropWhile Char.isDigit)

/-- Reads a precision, which a point introduces. A point alone is a precision of 0. -/
def readPrecision : List Char → Option Extent × List Char
  | '.' :: rest => (some ((readExtent rest).1.getD (.fixed 0)), (readExtent rest).2)
  | cs => (none, cs)

/-- Drops a letter that tells the size of a value, which says nothing here. -/
def dropSize : List Char → List Char
  | c :: rest => if c = 'l' ∨ c = 'h' ∨ c = 'L' then rest else c :: rest
  | [] => []

/-- Reads a name up to its closing bracket; brackets inside it come in pairs, `pairs` of which are
    open. -/
def readName (pairs : Nat) : List Char → Option (List Char × List Char)
  | [] => none
  | c :: rest =>
    if c = ')' ∧ pairs = 0 then some ([], rest)
    else
      let pairs := if c = '(' then pairs + 1 else if c = ')' then pairs - 1 else pairs
      (readName pairs rest).map fun (name, rest) => (c :: name, rest)

/-- Reads the member that a conversion names. -/
def readMember : List Char → Option Member × List Char
  | '(' :: rest =>
    match readName 0 rest with
    | some (name, rest) => (some (.name (String.ofList name)), rest)
    | none => (some .unclosed, [])
  | cs => (none, cs)

/-- Reads a conversion after its sign, in a template of `total` characters. -/
def readConversion (total : Nat) (cs : List Char) : Piece × List Char :=
  let isFlag := fun c => (flag? {} c).isSome
  let (member, cs) := readMember cs
  let flags := (cs.takeWhile isFlag).foldl (fun c f => (flag? c f).getD c) {}
  let (width, rest) := readExtent (cs.dropWhile isFlag)
  let (precision, rest) := readPrecision rest
  match dropSize rest with
  | [] => (.conversion member flags width precision none, [])
  | letter :: after =>
    (.conversion member flags width precision (some (letter, total - (after.length + 1))), after)

/-- The pieces of a template of `total` characters; `fuel` bounds their number. -/
def pieces (total : Nat) : Nat → List Char → List Piece
  | 0, _ => []
  | _, [] => []
  | fuel + 1, '%' :: '%' :: rest => .plain '%' :: pieces total fuel rest
  | fuel + 1, '%' :: rest =>
    let (piece, after) := readConversion total rest
    piece :: pieces total fuel after
  | fuel + 1, c :: rest => .plain c :: pieces total fuel rest

/-- What is left to fill in: the values in their order, and the collection whose members can be
    named. -/
structure Supply where
  values : List Json
  source : Option Json

/-- All that a filling offers. -/
def Supply.ofFilling : Filling → Supply
  | .several values => ⟨values, none⟩
  | .one (.obj members) => ⟨[.obj members], some (.obj members)⟩
  | .one (.arr items) => ⟨[.arr items], some (.arr items)⟩
  | .one value => ⟨[value], none⟩

/-- The supply at a conversion: a member that it names is the only value left. -/
def Supply.enter (member : Option Member) (s : Supply) : Except TemplateProblem Supply :=
  match member, s.source with
  | none, _ => .ok s
  | some _, none => .error .named
  | some .unclosed, some _ => .error .incompleteName
  | some (.name name), some (.obj members) =>
    match Json.get? name (.obj members) with
    | some value => .ok { s with values := [value] }
    | none => .error (.noMember name)
  | some (.name _), some _ => .error .namedInList

/-- A width or a precision must not be greater than its limit. -/
structure Bound where
  greatest : Nat
  /-- The problems with one that the template writes and with one among the values. -/
  written : TemplateProblem
  given : TemplateProblem

/-- The limit of widths. -/
def widthBound : Bound := ⟨9223372036854775807, .widthRange, .starWidthRange⟩

/-- The limit of precisions. -/
def precisionBound : Bound := ⟨2147483647, .precisionRange, .starPrecisionRange⟩

/-- The number that a width or a precision stands for, and the values that are left. -/
def Extent.take (b : Bound) : Extent → List Json → Except TemplateProblem (Int × List Json)
  | fixed n, values => if b.greatest < n then .error b.written else .ok (n, values)
  | star, .int n :: more =>
    if n < -(b.greatest : Int) - 1 ∨ (b.greatest : Int) < n then .error b.given else .ok (n, more)
  | star, .bool b :: more => .ok (if b then 1 else 0, more)
  | star, _ :: _ => .error .starKind
  | star, [] => .error .tooFew

/-- The layout with its width, and the values that are left. A negative width pads on the
    right. -/
def withWidth (c : Layout) (width : Option Extent) (values : List Json) :
    Except TemplateProblem (Layout × List Json) :=
  match width with
  | none => .ok (c, values)
  | some w => (w.take widthBound values).map fun (n, more) =>
    ({ c with left := c.left || n < 0, width := n.natAbs }, more)

/-- The layout with its precision, which is at least 0, and the values that are left. -/
def withPrecision (c : Layout) (precision : Option Extent) (values : List Json) :
    Except TemplateProblem (Layout × List Json) :=
  match precision with
  | none => .ok (c, values)
  | some p => (p.take precisionBound values).map fun (n, more) =>
    ({ c with precision := some n.toNat }, more)

/-- Texts are kept up to this width. -/
def greatestWidth : Nat := 1000000000

/-- The text of a value, unless it is too wide. -/
def fitted (c : Layout) (letter : Char) (position : Nat) (v : Json) :
    Except TemplateProblem (List Char) :=
  if greatestWidth < c.width then (render { c with width := 0 } letter position v).bind fun _ =>
    .error .memory
  else render c letter position v

/-- Fills the pieces in turn; without a collection every value must be used. -/
def fill : List Piece → Supply → Except TemplateProblem (List Char)
  | [], s => if s.values.isEmpty || s.source.isSome then .ok [] else .error .tooMany
  | .plain c :: more, s => (fill more s).map (c :: ·)
  | .conversion member flags width precision letter :: more, s => do
    let s ← s.enter member
    let (layout, values) ← withWidth flags width s.values
    let (layout, values) ← withPrecision layout precision values
    match letter, values with
    | none, _ => .error .incomplete
    | some _, [] => .error .tooFew
    | some (letter, position), v :: values =>
      let text ← fitted layout letter position v
      return text ++ (← fill more { s with values })

end Template

/-- The message of a template; with nothing to fill in, the template is taken as it stands. -/
def message (template : String) (filling : Filling) : Except TemplateProblem String :=
  let cs := template.toList
  if filling.isEmpty then .ok template
  else (Template.fill (Template.pieces cs.length cs.length cs) (.ofFilling filling)).map String.ofList

end Worklog.Log
