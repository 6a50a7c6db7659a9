import Worklog.Text.Blank
import Worklog.Text.Encoding

namespace Worklog.Dotenv

/-- A variable of a file; a name without `=` has no value. -/
structure Binding where
  name : String
  value : Option String
  deriving DecidableEq, Repr

/-- The quote that most escapes have no meaning in. -/
def apostrophe : Char := Char.ofNat 39

/-- A blank inside a line. -/
def isGap (c : Char) : Bool := Blank.isBlank c && c != '\n'

/-- Line ends of every kind as newlines. -/
def newlines : List Char → List Char
  | '\r' :: '\n' :: rest => '\n' :: newlines rest
  | '\r' :: rest => '\n' :: newlines rest
  | c :: rest => c :: newlines rest
  | [] => []

/-- Skips the blanks of a line. -/
def skipGaps (cs : List Char) : List Char := cs.dropWhile isGap

/-- What follows the current line. -/
def skipLine (cs : List Char) : List Char := (cs.dropWhile (· != '\n')).drop 1

/-- The text up to the closing quote and what follows. Two backslashes escape nothing. An escaped
    quote closes only if no other quote does; `spare` is the last place where one could. -/
def closing (quote : Char) : List Char → List Char → Option (List Char × List Char) →
    Option (List Char × List Char)
  | _, [], spare => spare
  | seen, c :: rest, spare =>
    if c = '\\' then
      match rest with
      | d :: more =>
        if d = quote then closing quote (d :: c :: seen) more (some ((c :: seen).reverse, more))
        else if d = c then closing quote (d :: c :: seen) more spare
        else closing quote (c :: seen) (d :: more) spare
      | [] => closing quote (c :: seen) [] spare
    else if c = quote then some (seen.reverse, rest)
    else closing quote (c :: seen) rest spare
  termination_by _ cs => cs.length

/-- The character that an escape stands for, in single or double quotes. -/
def escape? (quote : Char) (c : Char) : Option Char :=
  if c = '\\' ∨ c = apostrophe then some c
  else if quote = apostrophe then none
  else match c with
    | '"' => some '"'
    | 'a' => some (Char.ofNat 7)
    | 'b' => some (Char.ofNat 8)
    | 'f' => some (Char.ofNat 12)
    | 'n' => some '\n'
    | 'r' => some '\r'
    | 't' => some '\t'
    | 'v' => some (Char.ofNat 11)
    | _ => none

/-- The text that escapes stand for; a backslash before any other character stays. -/
def unescape (quote : Char) : List Char → List Char
  | '\\' :: c :: rest =>
    match escape? quote c with
    | some d => d :: unescape quote rest
    | none => '\\' :: unescape quote (c :: rest)
  | c :: rest => c :: unescape quote rest
  | [] => []
  termination_by cs => cs.length

/-- Cuts a comment off: from the first blanks before a `#`. -/
def dropComment : List Char → List Char
  | [] => []
  | c :: rest =>
    if Blank.isBlank c && (rest.dropWhile Blank.isBlank).head? == some '#' then []
    else c :: dropComment rest

/-- A value without quotes: the line, without its comment and the blanks around it. -/
def plainValue (line : List Char) : List Char :=
  (((dropComment line).reverse.dropWhile Blank.isBlank).reverse).dropWhile Blank.isBlank

/-- Reads a value, with the blanks before it, and answers what follows it. -/
def value? (cs : List Char) : Option (List Char × List Char) :=
  let plain := (plainValue (cs.takeWhile (· != '\n')), cs.dropWhile (· != '\n'))
  match skipGaps cs with
  | [] => some plain
  | c :: rest =>
    if c = apostrophe ∨ c = '"' then
      (closing c [] rest none).map fun (v, rest) => (unescape c v, rest)
    else some plain

/-- Drops the word `export` with the blanks behind it. -/
def skipExport (cs : List Char) : List Char :=
  let word := "export".toList
  if word.isPrefixOf cs && ((cs.drop 6).head?.any isGap) then skipGaps (cs.drop 6) else cs

/-- Reads a name in single quotes. -/
def quotedName? (cs : List Char) : Option (Option (List Char) × List Char) :=
  let name := cs.takeWhile (· != apostrophe)
  match cs.dropWhile (· != apostrophe) with
  | _ :: more => if name.isEmpty then none else some (some name, more)
  | [] => none

/-- Reads a name: in single quotes, or up to `=`, `#` or a blank. A comment has no name. -/
def name? (cs : List Char) : Option (Option (List Char) × List Char) :=
  let stops := fun c : Char => c == '=' || c == '#' || Blank.isBlank c
  let name := cs.takeWhile fun c => !stops c
  if cs.head? = some '#' then some (none, cs)
  else if cs.head? = some apostrophe then quotedName? (cs.drop 1)
  else if name.isEmpty then none
  else some (some name, cs.dropWhile fun c => !stops c)

/-- Reads to the end of the line, where only a comment may stand. -/
def lineEnd? (cs : List Char) : Option (List Char) :=
  let cs := match skipGaps cs with
    | '#' :: rest => rest.dropWhile (· != '\n')
    | _ => cs
  match skipGaps cs with
  | [] => some []
  | '\n' :: rest => some rest
  | _ => none

/-- Reads one line; an unreadable one gives no binding. The second part is what follows. -/
def line (cs : List Char) : Option Binding × List Char :=
  let cs := skipExport cs
  match name? cs with
  | none => (none, skipLine cs)
  | some (name, cs) =>
    let binding := fun value : Option (List Char) =>
      name.map fun n => Binding.mk (String.ofList n) (value.map String.ofList)
    match skipGaps cs with
    | '=' :: rest =>
      match value? rest with
      | none => (none, skipLine rest)
      | some (value, rest) =>
        match lineEnd? rest with
        | some rest => (binding (some value), rest)
        | none => (none, skipLine rest)
    | rest =>
      match lineEnd? rest with
      | some rest => (binding none, rest)
      | none => (none, skipLine rest)

/-- The bindings of a text; `fuel` bounds the number of lines. -/
def bindings : Nat → List Char → List Binding
  | 0, _ => []
  | fuel + 1, cs =>
    let cs := cs.dropWhile Blank.isBlank
    if cs.isEmpty then []
    else
      let (binding, rest) := line cs
      binding.toList ++ bindings fuel rest

/-- A reference at the front of a text: name, default and what follows. -/
def reference? (cs : List Char) : Option (List Char × Option (List Char) × List Char) :=
  match cs with
  | '$' :: '\x7b' :: rest =>
    let name := rest.takeWhile fun c => c != '\x7d' && c != ':'
    match rest.dropWhile fun c => c != '\x7d' && c != ':' with
    | ':' :: '-' :: more =>
      match more.dropWhile (· != '\x7d') with
      | _ :: after => some (name, some (more.takeWhile (· != '\x7d')), after)
      | [] => none
    | '\x7d' :: after => some (name, none, after)
    | _ => none
  | _ => none

/-- Replaces references; `look` tells whether a variable exists and its value. -/
def expand (look : String → Option (Option String)) : Nat → List Char → List Char
  | 0, cs => cs
  | _, [] => []
  | fuel + 1, c :: rest =>
    match reference? (c :: rest) with
    | some (name, instead, after) =>
      let value := match look (String.ofList name) with
        | some v => (v.getD "").toList
        | none => instead.getD []
      value ++ expand look fuel after
    | none => c :: expand look fuel rest

/-- Sets a variable, in place if it is there already. -/
def assign (name : String) (value : Option String) : List Binding → List Binding
  | [] => [⟨name, value⟩]
  | b :: rest => if b.name = name then ⟨name, value⟩ :: rest else b :: assign name value rest

/-- The variables of a file, each resolved with those before it and then the environment. -/
def resolve (environment : List (String × String)) (bs : List Binding) : List Binding :=
  bs.foldl (fun done b =>
    let look := fun name =>
      match done.find? (·.name = name) with
      | some d => some d.value
      | none => (environment.find? (·.1 = name)).map fun e => some e.2
    assign b.name (b.value.map fun v => String.ofList (expand look v.length v.toList)) done) []

/-- Reads a file of variables, lines `NAME=value` that may begin with `export`. A value in quotes may go over
    several lines and has escapes; one without ends at the line or at a blank before `#`. A line that cannot
    be read is skipped. `${NAME:-default}` stands for the value of a variable. -/
def read (environment : List (String × String)) (text : String) : List Binding :=
  let cs := newlines (Encoding.dropMark text.toList)
  resolve environment (bindings (cs.length + 1) cs)

end Worklog.Dotenv
