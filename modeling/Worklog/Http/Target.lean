import Worklog.Text.Percent

namespace Worklog.Http

/-- A target: the path with its bytes decoded, and the query as it was sent. -/
structure Target where
  path : List Char
  query : List Char
  deriving DecidableEq, Repr

namespace Target

/-- Drops the segments `.`, and `..` with the segment before it; `kept` is what is left so far, the
    latest first. -/
def dropDots (kept : List (List Char)) : List (List Char) → List (List Char)
  | [] => kept.reverse
  | part :: rest =>
    if part = ['.'] then dropDots kept rest
    else if part = ['.', '.'] then dropDots (if kept = [[]] then kept else kept.drop 1) rest
    else dropDots (part :: kept) rest

/-- Drops the host that a target may name after two slashes. -/
def dropHost : List Char → List Char
  | '/' :: '/' :: rest => rest.dropWhile (· != '/')
  | cs => cs

/-- Reads a target. A fragment does not count, nor do slashes at the front beyond the first. -/
def ofText (s : String) : Target :=
  let cs := s.toList.takeWhile (· != '#')
  let path := '/' :: (dropHost (cs.takeWhile (· != '?'))).dropWhile (· == '/')
  ⟨Percent.decode (Separated.join '/' (dropDots [] (Separated.parts '/' path))),
    (cs.dropWhile (· != '?')).drop 1⟩

/-- The segments of the path, the first of which is empty. -/
def segments (t : Target) : List String := (Separated.parts '/' t.path).map String.ofList

/-- The last value of a name in the query. -/
def parameter? (name : String) (t : Target) : Option String :=
  ((Percent.fields t.query).reverse.find? (·.1 = name)).map (·.2)

/-- The path with the slash at its end added or all of them taken away. -/
def otherPath (t : Target) : List Char :=
  if t.path.getLast? = some '/' then (t.path.reverse.dropWhile (· == '/')).reverse
  else t.path ++ ['/']

/-- Marks that a path shows as they are. -/
def pathMarks : List Char := Char.ofNat 39 :: "_.-~/:@!$&()*+,;=".toList

/-- Marks that a query shows as they are. -/
def queryMarks : List Char := pathMarks ++ "%#?[]".toList

/-- The address of a path and a query on the host. -/
def location (path query : List Char) : String :=
  String.ofList ("http://test".toList ++ Percent.encode pathMarks path ++
    Percent.encode queryMarks (if query.isEmpty then [] else '?' :: query))

end Target
end Worklog.Http
