import Worklog.Http.Endpoint
import Worklog.Settings

namespace Worklog.Http

/-- The service: its database, unless none has been opened, its clock, and the origins that browsers
    may call it from. -/
structure Service where
  clock : Moment
  database : Database := {}
  opened : Bool := true
  origins : List String := ({} : Settings).corsOrigins

/-- The methods that browsers may ask for. -/
def browserMethods : List String :=
  ["DELETE", "GET", "HEAD", "OPTIONS", "PATCH", "POST", "PUT", "QUERY"]

namespace Response

/-- Allows an origin to read the response, if it may. -/
def allowing (origins : List String) (origin : Option String) (r : Response) : Response :=
  match origin with
  | some o => if origins.contains o then r.withHeader "access-control-allow-origin" o else r
  | none => r

/-- The answer to a browser that asks whether it may send a request, which `isPrivate` says would
    cross into a private network. -/
def preflight (origins : List String) (origin method : String) (isPrivate : Bool) : Response :=
  let failures := (if origins.contains origin then [] else ["origin"]) ++
    (if browserMethods.contains method then [] else ["method"]) ++
    (if isPrivate then ["private-network"] else [])
  allowing origins (some origin)
    (if failures.isEmpty then ⟨200, .text "OK", []⟩
     else ⟨400, .text ("Disallowed CORS " ++ String.intercalate ", " failures), []⟩)

end Response

/-- The outcome of a request inside the service; an unforeseen fault is told apart, because no
    browser may read its response. -/
inductive Outcome where
  | response (r : Response)
  | unforeseen (r : Response)

/-- The outcome that reports a fault. -/
def Outcome.ofFault (f : Fault) : Outcome :=
  match f with
  | .failure _ => .response (.ofFault f)
  | _ => .unforeseen (.ofFault f)

namespace Service

/-- A use of the service that gives its outcome. -/
abbrev Act := StateM Service Outcome

/-- Adds a record to the log. -/
def note (r : Log.Record) (s : Service) : Service := { s with database := s.database.note r }

/-- Reports issues. -/
def refuse (r : Request) (is : List Issue) : Act := fun s =>
  (.response (.invalid is), s.note (issuesRecord r.path is))

/-- Reports a fault. -/
def give (r : Request) (f : Fault) : Act := fun s =>
  (.ofFault f, s.note (faultRecord r.path f))

/-- Makes a checked call. Without a database only readiness can be asked for, and it is not
    given. -/
def call (fresh : Uuid) (r : Request) (c : Call) : Act := fun s =>
  match c, s.opened with
  | .ready, false => (.response (.readiness false), s)
  | c, _ =>
    match c.run fresh s.clock s.database with
    | (.ok response, db) => (.response response, { s with database := db })
    | (.error fault, db) => give r fault { s with database := db }

/-- Follows a route. -/
def follow (fresh : Uuid) (r : Request) (route : Route) : Act := fun s =>
  match (if route.hasBody then r.readBody else .ok .missing) with
  | .error (.noJson position) => refuse r [⟨["body", Digits.text position], .badJson⟩] s
  | .error .unreadable => (.response (.detail 400 "There was an error parsing the body"), s)
  | .ok body =>
    if route.needsDatabase && !s.opened then give r .notOpened s
    else
      match route.read r.target body with
      | .error is => refuse r is s
      | .ok c => call fresh r c s

/-- The response to a request that no route takes: a path that differs in the slash at its end is
    pointed to. -/
def unrouted (r : Request) : Response :=
  let other := { r.target with path := r.target.otherPath }
  if r.target.path ≠ ['/'] ∧ ¬(Route.ofSegments other.segments).isEmpty then
    ⟨307, .text "", [("location", Target.location other.path other.query)]⟩
  else .detail 404 "Not Found"

/-- The outcome of a request. -/
def dispatch (fresh : Uuid) (r : Request) : Act := fun s =>
  let routes := Route.ofSegments r.target.segments
  match routes.find? (·.1 = r.method), routes with
  | some (_, route), _ => follow fresh r route s
  | none, (allowed, _) :: _ =>
    (.response (.detail 405 "Method Not Allowed" [("allow", allowed)]), s)
  | none, [] => (.response (unrouted r), s)

/-- A response without its body, for requests that ask for none. -/
def trimmed (method : String) (r : Response) : Response :=
  if method = "HEAD" then { r with content := .text "" } else r

/-- Answers a request. Browsers of allowed origins may read every response but the one to an unforeseen
    fault. -/
def answer (fresh : Uuid) (r : Request) (s : Service) : Response × Service :=
  match r.header? "origin", r.header? "access-control-request-method" with
  | some origin, some method =>
    if r.method = "OPTIONS" then
      (.preflight s.origins origin method
        (r.header? "access-control-request-private-network").isSome, s)
    else finish (some origin)
  | origin, _ => finish origin
where
  /-- The response to a request that is no question about another. -/
  finish (origin : Option String) : Response × Service :=
    match dispatch fresh r s with
    | (.response response, s) => (trimmed r.method (response.allowing s.origins origin), s)
    | (.unforeseen response, s) => (trimmed r.method response, s)

/-- Takes the database away. -/
def withoutDatabase (s : Service) : Service := { s with opened := false }

/-- Makes every statement of a caller fail. -/
def withFailingStatements (s : Service) : Service :=
  let broken := Rejection.error .operational "statement failed"
  { s with database := { s.database with
      disruption := fun _ verb => if verb = .execute then some broken else none } }

end Service
end Worklog.Http
