import Worklog.Json
import Worklog.Number.Shortest

namespace Worklog.Json

/-- One character of a string. -/
def escapeChar (c : Char) : List Char :=
  if c = '"' then ['\\', '"']
  else if c = '\\' then ['\\', '\\']
  else if c = '\n' then ['\\', 'n']
  else if c = '\r' then ['\\', 'r']
  else if c = '\t' then ['\\', 't']
  else if c.toNat = 8 then ['\\', 'b']
  else if c.toNat = 12 then ['\\', 'f']
  else if c.toNat < 0x20 then '\\' :: 'u' :: Digits.fixedHex 4 c.toNat
  else [c]

/-- A string between quotes. -/
def renderString (cs : List Char) : List Char := '"' :: cs.flatMap escapeChar ++ ['"']

/-- A double; the values that are no numbers have names. -/
def renderDouble : Double → List Char
  | .finite negative mantissa exponent => Double.renderFinite negative mantissa exponent
  | .infinite false => "Infinity".toList
  | .infinite true => "-Infinity".toList
  | .nan => "NaN".toList

mutual

/-- The characters of a value, with a blank after every comma and colon. Integers are written at any length:
    a limit on their digits is a setting of the process and not of the format. -/
def render : Json → List Char
  | .null => "null".toList
  | .bool true => "true".toList
  | .bool false => "false".toList
  | .int n => Digits.ofInt n
  | .real d => renderDouble d
  | .str s => renderString s.toList
  | .broken => renderString []
  | .arr items => '[' :: renderItems items ++ [']']
  | .obj members => '\x7b' :: renderMembers members ++ ['\x7d']

/-- Values with commas between them. -/
def renderItems : List Json → List Char
  | [] => []
  | [v] => render v
  | v :: w :: rest => render v ++ ',' :: ' ' :: renderItems (w :: rest)

/-- Named values with commas between them. -/
def renderMembers : List (String × Json) → List Char
  | [] => []
  | [(name, v)] => renderString name.toList ++ ':' :: ' ' :: render v
  | (name, v) :: m :: rest =>
    renderString name.toList ++ ':' :: ' ' :: render v ++ ',' :: ' ' :: renderMembers (m :: rest)

end

/-- The text of a value. -/
def text (v : Json) : String := String.ofList v.render

end Worklog.Json
