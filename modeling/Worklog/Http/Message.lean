import Worklog.Field.Issue
import Worklog.Http.Target
import Worklog.Json.Reader
import Worklog.Text.Blank
import Worklog.Text.Case
import Worklog.Text.Encoding

namespace Worklog.Http

/-- A request. -/
structure Request where
  method : String
  target : Target
  headers : List (String × String) := []
  body : String := ""

/-- What a response carries. -/
inductive Content where
  | json (v : Json)
  | text (s : String)

/-- A response. -/
structure Response where
  status : Int
  content : Content
  headers : List (String × String) := []

/-- The body of a request, as far as it is understood. -/
inductive Body where
  | missing
  | value (v : Json)
  /-- A body of another type. -/
  | foreign

/-- Why a body is refused. -/
inductive BadBody where
  /-- The body is no JSON, which shows at a position. -/
  | noJson (position : Nat)
  /-- The body is no text, or nested too deep. -/
  | unreadable
  deriving DecidableEq, Repr

namespace Request

/-- The value of a header, whose name counts in any case. -/
def header? (name : String) (r : Request) : Option String :=
  (r.headers.find? fun h => Case.lower h.1 = name).map (·.2)

/-- The path as a text. -/
def path (r : Request) : String := String.ofList r.target.path

/-- The media type of a content type: without parameters, in small letters. -/
def mediaType (contentType : String) : List Char :=
  let plain := Blank.trim Blank.isBlank (contentType.toList.takeWhile (· != ';'))
  (Case.lower (String.ofList plain)).toList

/-- A media type of JSON. -/
def isJsonType (media : List Char) : Bool :=
  media = "application/json".toList ||
    ("application/".toList.isPrefixOf media && media.count '/' == 1 &&
      "+json".toList.isSuffixOf media)

/-- How deep the values of a body may be nested. -/
def greatestDepth : Nat := 950

/-- Reads the body as JSON. -/
def readJson (r : Request) : Except BadBody Body :=
  match Encoding.decode? (Utf8.encode r.body.toList) with
  | none => .error .unreadable
  | some cs =>
    match Json.parseChars (some Json.greatestDigits) greatestDepth cs with
    | .ok v => .ok (.value v)
    | .error (.misplaced position) => .error (.noJson position)
    | .error .tooDeep => .error .unreadable

/-- Reads the body, which counts as JSON only if its content type says so. -/
def readBody (r : Request) : Except BadBody Body :=
  if r.body = "" then .ok .missing
  else
    match r.header? "content-type" with
    | some t => if isJsonType (mediaType t) then r.readJson else .ok .foreign
    | none => .ok .foreign

end Request

namespace Body

/-- Reads the members of a body with the issues inside it. -/
def members {α : Type} (reader : List (String × Json) → Except (List Issue) α) :
    Body → Except (List Issue) α
  | missing => .error [⟨["body"], .missing⟩]
  | value (.obj ms) => (reader ms).mapError fun is => is.map (Issue.within "body")
  | value _ | foreign => .error [⟨["body"], .notFields⟩]

end Body

namespace Response

/-- A response with a JSON body. -/
def ofJson (status : Int) (v : Json) : Response := ⟨status, .json v, []⟩

/-- A response that says why there is no other. -/
def detail (status : Int) (text : String) (headers : List (String × String) := []) : Response :=
  ⟨status, .json (.obj [("detail", .str text)]), headers⟩

/-- The response with one header more. -/
def withHeader (name value : String) (r : Response) : Response :=
  { r with headers := r.headers ++ [(name, value)] }

end Response
end Worklog.Http
