import Worklog.Text.Capital

namespace Worklog.Case

/-- The small letter of a capital; other characters stay. The dotted capital I keeps its dot as a
    mark of its own. -/
def small (c : Char) : List Char :=
  if c.toNat = 0x130 then ['i', Char.ofNat 0x307]
  else match Capital.runs.find? (·.has c) with
    | some r => [Char.ofNat (c.toNat + r.shift).toNat]
    | none => [c]

/-- A letter comes first, marks aside. -/
def facesLetter (cs : List Char) : Bool :=
  (cs.find? fun c => !Capital.marks.has c).any Capital.letters.has

/-- The characters in small letters; `before` is what stands before them, the nearest first. A sigma
    at the end of a word has a form of its own. -/
def lowerChars (before : List Char) : List Char → List Char
  | [] => []
  | c :: rest =>
    (if c = 'Σ' then
      [if facesLetter before && !facesLetter rest then 'ς' else 'σ']
     else small c) ++ lowerChars (c :: before) rest

/-- A text in small letters. -/
def lower (s : String) : String := String.ofList (lowerChars [] s.toList)

end Worklog.Case
