import Worklog.Log.Record

namespace Worklog.Log

/-- The form of an output. -/
inductive Form where
  | json
  | plain
  deriving DecidableEq, Repr

/-- Only the exact word `json` asks for JSON. -/
def Form.ofName (s : String) : Form := if s = "json" then json else plain

/-- The line of a record in a form; the two forms write times differently. -/
def Form.line (jsonStamp plainStamp : String) (r : Record) : Form → String
  | json => r.line jsonStamp
  | plain => r.plainLine plainStamp

/-- The state of the logs. -/
structure Setup where
  level : Level := .warning
  outputs : List Form := []
  deriving DecidableEq, Repr

/-- What the name of a level stands for. -/
inductive Threshold where
  | level (l : Level)
  /-- A text that is no level. -/
  | text (s : String)
  /-- A value that is no text either, as messages show it. -/
  | value (shown : String)
  deriving DecidableEq, Repr

namespace Threshold

/-- Upper case, for the characters whose upper case is in ASCII. -/
def upper (c : Char) : List Char :=
  match c.toNat with
  | 0x131 => ['I']
  | 0x17f => ['S']
  | 0xfb05 | 0xfb06 => ['S', 'T']
  | _ => [c.toUpper]

/-- The layout of a line that has no form. -/
def basicFormat : String := "%(levelname)s:%(name)s:%(message)s"

/-- The table of the ways to write layouts. -/
def styles : String :=
  "\x7b'%': (<class 'logging.PercentStyle'>, '%(levelname)s:%(name)s:%(message)s'), " ++
    "'\x7b': (<class 'logging.StrFormatStyle'>, '\x7blevelname\x7d:\x7bname\x7d:\x7bmessage\x7d'), " ++
    "'$': (<class 'logging.StringTemplateStyle'>, " ++
    "'$\x7blevelname\x7d:$\x7bname\x7d:$\x7bmessage\x7d')\x7d"

/-- Looks a name up; what is unknown counts as INFO. -/
def ofName (s : String) : Threshold :=
  let name := String.ofList (s.toList.flatMap upper)
  match Level.ofName? name with
  | some l => .level l
  | none =>
    if name = "BASIC_FORMAT" then .text basicFormat
    else if name = "_STYLES" then .value styles
    else .level .info

end Threshold

/-- Something that stands for no level. -/
inductive UnknownLevel where
  | text (s : String)
  | value (shown : String)
  deriving DecidableEq, Repr

def UnknownLevel.message : UnknownLevel → String
  | text s => "Unknown level: " ++ Quoted.quoted s
  | value shown => "Level not an integer or a valid string: " ++ shown

namespace Setup

/-- Adds an output. -/
def addOutput (form : String) (s : Setup) : Setup :=
  { s with outputs := s.outputs ++ [Form.ofName form] }

/-- Adds an output and sets the level; a name that is no level leaves the level alone. -/
def add (level form : String) (s : Setup) : Except UnknownLevel Unit × Setup :=
  let s := s.addOutput form
  match Threshold.ofName level with
  | .level l => (.ok (), { s with level := l })
  | .text t => (.error (.text t), s)
  | .value v => (.error (.value v), s)

end Setup
end Worklog.Log
