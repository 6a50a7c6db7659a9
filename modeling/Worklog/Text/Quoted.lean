import Worklog.Text.Digits
import Worklog.Text.Hidden

namespace Worklog.Quoted

/-- One character between quotes of the given kind. -/
def escape (quote c : Char) : List Char :=
  if c = quote ∨ c = '\\' then ['\\', c]
  else if c = '\n' then ['\\', 'n']
  else if c = '\r' then ['\\', 'r']
  else if c = '\t' then ['\\', 't']
  else if Hidden.isHidden c then
    if c.toNat < 0x100 then '\\' :: 'x' :: Digits.fixedHex 2 c.toNat
    else if c.toNat < 0x10000 then '\\' :: 'u' :: Digits.fixedHex 4 c.toNat
    else '\\' :: 'U' :: Digits.fixedHex 8 c.toNat
  else [c]

/-- The quoted form of a text. -/
def quoted (s : String) : String :=
  let single := Char.ofNat 39
  let quote := if s.toList.contains single && !s.toList.contains '"' then '"' else single
  String.ofList (quote :: (s.toList.flatMap (escape quote)) ++ [quote])

end Worklog.Quoted
