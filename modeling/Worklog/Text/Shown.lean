import Worklog.Json.Printer
import Worklog.Text.Quoted

namespace Worklog.Shown

/-- A double, with names for the values that are no numbers. -/
def double : Double → List Char
  | .finite negative mantissa exponent => Double.renderFinite negative mantissa exponent
  | .infinite false => "inf".toList
  | .infinite true => "-inf".toList
  | .nan => "nan".toList

mutual

/-- A value inside a collection. -/
def inner : Json → List Char
  | .null => "None".toList
  | .bool true => "True".toList
  | .bool false => "False".toList
  | .int n => Digits.ofInt n
  | .real d => double d
  | .str s => (Quoted.quoted s).toList
  | .broken => (Quoted.quoted "").toList
  | .arr items => '[' :: innerItems items ++ [']']
  | .obj members => '\x7b' :: innerMembers members ++ ['\x7d']

/-- Values with commas between them. -/
def innerItems : List Json → List Char
  | [] => []
  | [v] => inner v
  | v :: w :: rest => inner v ++ ',' :: ' ' :: innerItems (w :: rest)

/-- Named values with commas between them. -/
def innerMembers : List (String × Json) → List Char
  | [] => []
  | [(name, v)] => (Quoted.quoted name).toList ++ ':' :: ' ' :: inner v
  | (name, v) :: m :: rest =>
    (Quoted.quoted name).toList ++ ':' :: ' ' :: inner v ++ ',' :: ' ' :: innerMembers (m :: rest)

end

/-- The text of a value. -/
def text : Json → String
  | .str s => s
  | v => String.ofList (inner v)

end Worklog.Shown
