import Worklog.Text.Digits
import Worklog.Text.Separated
import Worklog.Text.Utf8

namespace Worklog.Percent

/-- The bytes of a text in which some are written as `%` and two digits. -/
def bytes : List Char → List Nat
  | '%' :: a :: b :: rest =>
    match Digits.hex? [a, b] with
    | some n => n :: bytes rest
    | none => Utf8.encodeChar '%' ++ bytes (a :: b :: rest)
  | c :: rest => Utf8.encodeChar c ++ bytes rest
  | [] => []
  termination_by cs => cs.length

/-- The text that encoded bytes stand for. -/
def decode (cs : List Char) : List Char := Utf8.decode (bytes cs)

/-- Decodes a text in which `+` is a blank. -/
def decodeField (cs : List Char) : List Char :=
  decode (cs.map fun c => if c = '+' then ' ' else c)

/-- Encodes all characters but ASCII letters, digits and some marks. -/
def encode (marks cs : List Char) : List Char :=
  cs.flatMap fun c =>
    if c.isAlphanum || marks.contains c then [c]
    else (Utf8.encodeChar c).flatMap fun b =>
      '%' :: (Digits.fixedHex 2 b).map Char.toUpper

/-- The names and values that a query gives. A name alone has the empty value. -/
def fields (query : List Char) : List (String × String) :=
  let plain := fun cs : List Char => String.ofList (decodeField cs)
  ((Separated.parts '&' query).filter (!·.isEmpty)).map fun part =>
    (plain (part.takeWhile (· != '=')), plain ((part.dropWhile (· != '=')).drop 1))

end Worklog.Percent
