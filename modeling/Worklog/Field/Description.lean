import Worklog.Field.Issue
import Worklog.Json
import Worklog.Text.Blank

namespace Worklog.Description

/-- Greatest length of a description as it is handed in. -/
def maxLength : Nat := 1000

/-- Normalises a text. The length is checked before the blanks are dropped. -/
def ofText (s : String) : Except Problem String :=
  if s.length = 0 then .error .tooShort
  else if maxLength < s.length then .error (.tooLong maxLength)
  else if Blank.strip s = "" then .error .blank
  else .ok (Blank.strip s)

/-- Reads a description. -/
def ofJson : Json → Except Problem String
  | .str s => ofText s
  | .broken => .error .brokenString
  | _ => .error .notString

/-- Reads a description that may be null. -/
def ofJson? : Json → Except Problem (Option String)
  | .null => .ok none
  | v => (ofJson v).map some

end Worklog.Description
