import Worklog.Field.Integer
import Worklog.Json.Reader
import Worklog.Settings.Connection
import Worklog.Settings.Dotenv
import Worklog.Settings.Options

namespace Worklog

/-- The settings. -/
structure Settings where
  databaseUrl : String := "postgresql+asyncpg://timetrack:timetrack@db:5432/timetrack"
  poolSize : Int := Connection.defaultSize
  maxOverflow : Int := Connection.defaultOverflow
  corsOrigins : List String := ["http://localhost:5173"]
  logLevel : String := "INFO"
  logFormat : String := "json"
  deriving DecidableEq, Repr

namespace Settings

/-- The variables of a process. -/
abbrev Environment := List (String × String)

/-- Values by name. -/
abbrev Given := List (String × Json)

/-- The places where a variable can be found. -/
inductive Source where
  | environment
  | file
  deriving DecidableEq, Repr

/-- Why the settings cannot be had. -/
inductive Unusable where
  /-- The list of origins is no JSON. -/
  | badList (source : Source)
  | issues (is : List Issue)
  deriving DecidableEq, Repr

/-- The name of a source in messages. -/
def Source.name : Source → String
  | environment => "EnvSettingsSource"
  | file => "DotEnvSettingsSource"

/-- The wording of an unreadable list. -/
def badListMessage (s : Source) : String :=
  "error parsing value for field \"cors_origins\" from source \"" ++ s.name ++ "\""

/-- The name of the setting that is a list. -/
def listName : String := "cors_origins"

/-- The names of the settings. -/
def names : List String :=
  ["database_url", "database_pool_size", "database_max_overflow", listName, "log_level", "log_format"]

/-- The value of the last variable of a setting that counts. -/
def lookup? (o : Options) (setting : String) (entries : List (String × Option String)) :
    Option String :=
  (entries.reverse.find? fun v => o.counts v.2 && o.compared v.1 = o.variableName setting).bind (·.2)

/-- What variables of parts make of a setting that has no variable of its own: an object, which only
    the list of origins may be given as, though none will do. -/
def fromParts (o : Options) (name : String) (entries : List (String × Option String)) : Given :=
  if name = listName && entries.any (fun v => o.counts v.2 && o.givesPart name v.1) then
    [(name, .obj [])]
  else []

/-- The values that a source of variables gives. Lists are written in JSON, and null there gives
    nothing. -/
def fromVariables (o : Options) (source : Source) (entries : List (String × Option String)) :
    List String → Except Unusable Given
  | [] => .ok []
  | name :: rest => do
    let here ← match lookup? o name entries with
      | none => pure (fromParts o name entries)
      | some text =>
        if o.nullText = some text then pure [(name, .null)]
        else if name = listName then
          match Json.parseChars (some Json.greatestDigits) text.length text.toList with
          | .ok .null => pure []
          | .ok v => pure [(name, v)]
          | .error _ => .error (.badList source)
        else pure [(name, .str text)]
    return here ++ (← fromVariables o source entries rest)

/-- The variables of a file under the names that are compared, the last of each name. -/
def distinct (o : Options) (bs : List Dotenv.Binding) : List Dotenv.Binding :=
  (bs.filter (o.counts ·.value)).foldl
    (fun done b => Dotenv.assign (o.compared b.name) b.value done) []

/-- The names of a file that are no variables of settings or of parts of the list. A name without a
    value does not count, nor does the plain name of a setting whose variable is named otherwise. -/
def strangers (o : Options) (bs : List Dotenv.Binding) : List String :=
  let given := (distinct o bs).filter fun b => b.value.any (· ≠ "")
  (given.map (·.name)).filter fun n =>
    !((names.map o.variableName).contains n || o.givesPart listName n ||
      (o.start ≠ "" && names.contains n))

/-- The values that are given directly, under the names of the settings. Of several spellings of one
    name the first counts. -/
def direct (given : Given) : Given :=
  (given.foldl (fun done (name, v) =>
    let known := Case.lower name
    let name := if names.contains known then known else name
    if done.any (·.1 = name) then done else (name, v) :: done) []).reverse

/-- The first of several sources that gives a name. -/
def pick (sources : List Given) (name : String) : Option Json :=
  sources.findSome? fun given => (given.find? (·.1 = name)).map (·.2)

/-- Reads a text. -/
def text : Json → Except Problem String
  | .str s => .ok s
  | .broken => .error .brokenString
  | _ => .error .notString

/-- Reads the texts of a list; each issue has its place in the list. -/
def texts : Nat → List Json → Except (List Issue) (List String)
  | _, [] => .ok []
  | n, v :: rest =>
    match text v, texts (n + 1) rest with
    | .ok s, .ok more => .ok (s :: more)
    | .ok _, .error is => .error is
    | .error p, .ok _ => .error [⟨[Digits.text n], p⟩]
    | .error p, .error is => .error (⟨[Digits.text n], p⟩ :: is)

/-- Reads a list of texts. -/
def list : Json → Except (List Issue) (List String)
  | .arr items => texts 0 items
  | _ => .error [⟨[], .notList⟩]

/-- A value that may not be given. -/
def read {α : Type} (default : α) (name : String) (reader : Json → Except (List Issue) α)
    (sources : List Given) : Except (List Issue) α :=
  match pick sources name with
  | none => .ok default
  | some v => (reader v).mapError fun is => is.map (Issue.within name)

/-- One problem as the issues of a value. -/
def whole {α : Type} (r : Except Problem α) : Except (List Issue) α :=
  r.mapError fun p => [⟨[], p⟩]

/-- The issues of a value. -/
def issuesOf {α : Type} : Except (List Issue) α → List Issue
  | .ok _ => []
  | .error is => is

/-- The settings from values by name, the first source first; `unknown` are names that nobody
    knows. -/
def ofSources (sources : List Given) (unknown : List String) : Except (List Issue) Settings :=
  let usual : Settings := {}
  let databaseUrl := read usual.databaseUrl "database_url"
    (fun v => (whole (text v)).map Address.withDriver) sources
  let poolSize := read usual.poolSize "database_pool_size" (fun v => whole (Integer.ofJson v)) sources
  let maxOverflow :=
    read usual.maxOverflow "database_max_overflow" (fun v => whole (Integer.ofJson v)) sources
  let corsOrigins := read usual.corsOrigins listName list sources
  let logLevel := read usual.logLevel "log_level" (fun v => whole (text v)) sources
  let logFormat := read usual.logFormat "log_format" (fun v => whole (text v)) sources
  let extras := unknown.map fun n => Issue.mk [n] .extra
  match databaseUrl, poolSize, maxOverflow, corsOrigins, logLevel, logFormat, extras with
  | .ok databaseUrl, .ok poolSize, .ok maxOverflow, .ok corsOrigins, .ok logLevel, .ok logFormat, [] =>
    .ok { databaseUrl, poolSize, maxOverflow, corsOrigins, logLevel, logFormat }
  | _, _, _, _, _, _, _ =>
    .error (issuesOf databaseUrl ++ issuesOf poolSize ++ issuesOf maxOverflow ++
      issuesOf corsOrigins ++ issuesOf logLevel ++ issuesOf logFormat ++ extras)

/-- The settings of a process: given directly, by the environment or by a file, in that order of precedence.
    What nobody gives has a default. -/
def load (given : Given) (environment : Environment) (file : Option String) :
    Except Unusable Settings := do
  let o := Options.ofGiven given
  let given := direct (given.filter fun v => !Options.names.contains v.1)
  let bs := if o.readsFile then file.elim [] (Dotenv.read environment) else []
  let fromEnvironment ←
    fromVariables o .environment (environment.map fun v => (v.1, some v.2)) names
  let fromFile ← fromVariables o .file (bs.map fun b => (b.name, b.value)) names
  let unknown := strangers o bs ++
    ((given.map (·.1)).filter fun n => !(names.contains n || (strangers o bs).contains n))
  (ofSources [given, fromEnvironment, fromFile] unknown).mapError .issues

end Settings
end Worklog
