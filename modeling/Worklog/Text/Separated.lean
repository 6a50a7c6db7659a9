namespace Worklog.Separated

/-- The parts between all occurrences of a character. -/
def parts (sep : Char) : List Char → List (List Char)
  | [] => [[]]
  | c :: rest =>
    if c = sep then [] :: parts sep rest
    else match parts sep rest with
      | first :: more => (c :: first) :: more
      | [] => [[c]]

/-- The text with a character between its parts. -/
def join (sep : Char) : List (List Char) → List Char
  | [] => []
  | [part] => part
  | part :: more => part ++ sep :: join sep more

/-- The text before and after the first occurrence of a character. -/
def cutFirst? (sep : Char) (cs : List Char) : Option (List Char × List Char) :=
  match cs.dropWhile (· != sep) with
  | _ :: rest => some (cs.takeWhile (· != sep), rest)
  | [] => none

/-- The text before and after the last occurrence of a character. -/
def cutLast? (sep : Char) (cs : List Char) : Option (List Char × List Char) :=
  (cutFirst? sep cs.reverse).map fun (after, before) => (before.reverse, after.reverse)

end Worklog.Separated
