import Worklog.Json
import Worklog.Settings.Address

namespace Worklog

/-- What there is of a driver. -/
inductive Driver where
  /-- It waits without blocking. -/
  | waiting
  | blocking (name : String)
  /-- It needs a library that is not there. -/
  | missing (library : String)
  deriving DecidableEq, Repr

namespace Driver

/-- The drivers by the names that addresses ask for them: the dialect, or dialect and driver. -/
def all : List (String × Driver) :=
  [("sqlite", blocking "pysqlite"), ("sqlite.pysqlite", blocking "pysqlite"),
    ("sqlite.aiosqlite", waiting), ("sqlite.pysqlcipher", missing "pysqlcipher3"),
    ("postgresql", missing "psycopg"), ("postgresql.psycopg", missing "psycopg"),
    ("postgresql.psycopg_async", missing "psycopg"), ("postgresql.asyncpg", waiting),
    ("postgresql.psycopg2", missing "psycopg2"), ("postgresql.pg8000", missing "pg8000"),
    ("postgresql.psycopg2cffi", missing "psycopg2cffi"),
    ("mysql", missing "MySQLdb"), ("mysql.mysqldb", missing "MySQLdb"),
    ("mysql.pymysql", missing "pymysql"), ("mysql.aiomysql", missing "aiomysql"),
    ("mysql.asyncmy", missing "asyncmy"), ("mysql.mysqlconnector", missing "mysql"),
    ("mysql.mariadbconnector", missing "mariadb"), ("mysql.cymysql", missing "cymysql"),
    ("mysql.pyodbc", missing "pyodbc"),
    ("mariadb", missing "MySQLdb"), ("mariadb.mysqldb", missing "MySQLdb"),
    ("mariadb.pymysql", missing "pymysql"), ("mariadb.aiomysql", missing "aiomysql"),
    ("mariadb.asyncmy", missing "asyncmy"), ("mariadb.mysqlconnector", missing "mysql"),
    ("mariadb.mariadbconnector", missing "mariadb"), ("mariadb.cymysql", missing "cymysql"),
    ("mariadb.pyodbc", missing "pyodbc"),
    ("oracle", missing "oracledb"), ("oracle.oracledb", missing "oracledb"),
    ("oracle.oracledb_async", missing "oracledb"), ("oracle.cx_oracle", missing "cx_Oracle"),
    ("mssql", missing "pyodbc"), ("mssql.pyodbc", missing "pyodbc"),
    ("mssql.pymssql", missing "pymssql"), ("mssql.aioodbc", missing "aioodbc")]

/-- Why there is no driver for an address. -/
inductive Unknown where
  /-- Nobody has heard of the driver, or of an extension that the address asks for. -/
  | plugin (kind name : String)
  /-- More is named than a dialect and a driver. -/
  | manyNames
  deriving DecidableEq, Repr

/-- The wording for an unknown driver. -/
def Unknown.message : Unknown → String
  | plugin kind name => "Can't load plugin: sqlalchemy." ++ kind ++ ":" ++ name
  | manyNames => "too many values to unpack (expected 2)"

/-- The driver that an address asks for. -/
def ofAddress (a : Address) : Except Unknown Driver :=
  let name := String.ofList (a.scheme.map fun c => if c = '+' then '.' else c)
  if 1 < a.scheme.count '+' then .error .manyNames
  else match all.find? (·.1 = name) with
    | some (_, driver) => .ok driver
    | none => .error (.plugin "dialects" name)

end Driver

/-- The size of a pool and how far it may be exceeded, as they were given. -/
structure Pool where
  size : Json
  overflow : Json
  deriving Repr

/-- Connections to an address. -/
structure Connection where
  address : Address
  /-- The pool of connections to a server. -/
  pool : Option Pool
  /-- Seconds after which a connection is renewed. -/
  renewal : Option Nat
  deriving Repr

namespace Connection

/-- Why there is no connection to an address. -/
inductive Refusal where
  | address (u : Address.Unreadable)
  | driver (u : Driver.Unknown)
  | missing (library : String)
  /-- A file is on no host and has no users. -/
  | notFile (a : Address)
  | blocking (name : String)
  /-- The size of a pool is no number. -/
  | size (kind : String)
  /-- There is no address. -/
  | noAddress
  /-- Something was given that connections have no use for. -/
  | argument (name : String)
  deriving DecidableEq, Repr

/-- The wording of a refusal. -/
def Refusal.message : Refusal → String
  | address u => u.message
  | driver u => u.message
  | missing library => "No module named '" ++ library ++ "'"
  | notFile a => "Invalid SQLite URL: " ++ a.shown ++
      "\nValid SQLite URL forms are:\n sqlite:///:memory: (or, sqlite://)\n" ++
      " sqlite:///relative/path/to/file.db\n sqlite:////absolute/path/to/file.db"
  | blocking name => "The asyncio extension requires an async driver to be used. The loaded '" ++
      name ++ "' is not async."
  | size kind => "unsupported operand type(s) for -: 'int' and '" ++ kind ++ "'"
  | noAddress => "database_url or engine is required"
  | argument name =>
    "DatabaseSessionManager.__init__() got an unexpected keyword argument " ++ "'" ++ name ++ "'"

/-- The address names a file and nothing of a server. -/
def isFile (a : Address) : Bool :=
  [a.user, a.password, a.host].all (fun part => part.getD "" = "") && a.port.getD 0 = 0

/-- A value is a number. -/
def isNumber : Json → Bool
  | .bool _ | .int _ | .real _ => true
  | _ => false

/-- Makes a pool. One of no size has no bound to exceed, and nobody looks at the bound. -/
def poolOf (size overflow : Json) : Except Refusal Pool :=
  if isNumber size then .ok ⟨size, if size.isEmpty then .int (-1) else overflow⟩
  else .error (.size size.kindName)

/-- Connections to an address. SQLite keeps a pool of its own. -/
def toAddress (a : Address) (size overflow : Json) : Except Refusal Connection :=
  if a.dialect = "sqlite" then .ok ⟨a, none, none⟩
  else (poolOf size overflow).map fun p => ⟨a, some p, some 3600⟩

/-- Prepares connections to an address. The first extension that the address asks for is looked for
    before the driver, and there are none. -/
def prepare (url : String) (size overflow : Json) : Except Refusal Connection := do
  let a ← (Address.read url).mapError .address
  match a.options.find? (·.1 = "plugin") with
  | some (_, name) => .error (.driver (.plugin "plugins" name))
  | none => pure ()
  let driver ← (Driver.ofAddress a).mapError .driver
  match driver with
  | .missing library => .error (.missing library)
  | .blocking name =>
    .error (if a.dialect = "sqlite" ∧ ¬isFile a then .notFile a else .blocking name)
  | .waiting =>
    if a.dialect = "sqlite" ∧ ¬isFile a then .error (.notFile a)
    else toAddress a size overflow

/-- Sizes of a pool unless told otherwise. -/
def defaultSize : Int := 20

def defaultOverflow : Int := 10

/-- What connections have a use for. -/
def argumentNames : List String := ["pool_size", "max_overflow", "engine"]

/-- Prepares connections with arguments by name. -/
def ofArguments (url : Option String) (arguments : List (String × Json)) :
    Except Refusal Connection :=
  let given := fun name : String => (arguments.find? (·.1 = name)).map (·.2)
  match arguments.find? fun a => !argumentNames.contains a.1, url with
  | some (name, _), _ => .error (.argument name)
  | none, none => .error .noAddress
  | none, some url => prepare url ((given "pool_size").getD (.int defaultSize))
      ((given "max_overflow").getD (.int defaultOverflow))

end Connection
end Worklog
