import Worklog.Number.Double

namespace Worklog

/-- A JSON value. Integers are exact and apart from numbers written with a point or an exponent, which are
    doubles. -/
inductive Json where
  | null
  | bool (b : Bool)
  | int (n : Int)
  | real (d : Double)
  | str (s : String)
  /-- A string with an unpaired surrogate, which is no text. -/
  | broken
  | arr (items : List Json)
  | obj (members : List (String × Json))
  deriving Inhabited, Repr

namespace Json

/-- Sets a member: in place when the name is there, at the end when it is new. -/
def insert (name : String) (value : Json) : List (String × Json) → List (String × Json)
  | [] => [(name, value)]
  | (n, v) :: rest =>
    if n = name then (n, value) :: rest else (n, v) :: insert name value rest

/-- The member of an object with a name. -/
def get? (name : String) : Json → Option Json
  | .obj members => (members.find? (·.1 = name)).map (·.2)
  | _ => none

/-- The value counts as nothing: null, false, zero, or without any content. -/
def isEmpty : Json → Bool
  | null => true
  | bool b => !b
  | int n => n == 0
  | real (.finite _ m _) => m == 0
  | real _ => false
  | str s => s.isEmpty
  | broken => false
  | arr items => items.isEmpty
  | obj members => members.isEmpty

/-- The kind of a value, by the name that messages use. -/
def kindName : Json → String
  | null => "NoneType"
  | bool _ => "bool"
  | int _ => "int"
  | real _ => "float"
  | str _ | broken => "str"
  | arr _ => "list"
  | obj _ => "dict"

/-- Text or null. -/
def ofText? (s : Option String) : Json := s.elim .null .str

/-- An integer or null. -/
def ofInt? (n : Option Int) : Json := n.elim .null .int

end Json
end Worklog
