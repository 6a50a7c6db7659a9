import Worklog.Http.Service
import Worklog.Log.Setup

namespace Worklog.Http

/-- What the service works with once it has been opened. -/
structure Opened where
  settings : Settings
  logs : Log.Setup
  connection : Connection

/-- Why the service does not open. -/
inductive NotOpened where
  | settings (u : Settings.Unusable)
  | level (u : Log.UnknownLevel)
  | connection (r : Connection.Refusal)

namespace Opened

/-- The logger of the service. -/
def logger : String := "timetrack.main"

/-- Opens the service in an environment. -/
def ofEnvironment (environment : Settings.Environment) : Except NotOpened Opened := do
  let settings ← (Settings.load [] environment none).mapError .settings
  let (outcome, logs) := Log.Setup.add settings.logLevel settings.logFormat {}
  outcome.mapError .level
  let connection ← (Connection.prepare settings.databaseUrl (.int settings.poolSize)
    (.int settings.maxOverflow)).mapError .connection
  return ⟨settings, logs, connection⟩

/-- What the log says when the service has opened and when it closes. -/
def started : Log.Record := Log.Level.info.record logger "timetrack API started"

def stopped : Log.Record := Log.Level.info.record logger "timetrack API shutting down"

/-- A fresh service on the connection. A server that cannot be reached makes every access fail. -/
def service (clock : Moment) (o : Opened) : Service :=
  let unreachable := Raised.fault (.foreign "OSError" "the server cannot be reached")
  { clock, origins := o.settings.corsOrigins,
    database := { disruption := fun _ _ => if o.connection.pool.isSome then some unreachable else none } }

end Opened
end Worklog.Http
