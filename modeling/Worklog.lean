import Worklog.Body.Work
import Worklog.Calendar
import Worklog.Duration
import Worklog.Failure
import Worklog.Field.Description
import Worklog.Field.Integer
import Worklog.Field.Issue
import Worklog.Field.Request
import Worklog.Field.Timestamp
import Worklog.Http.Endpoint
import Worklog.Http.Lifetime
import Worklog.Http.Message
import Worklog.Http.Route
import Worklog.Http.Service
import Worklog.Http.Target
import Worklog.Ident
import Worklog.Interval
import Worklog.Json
import Worklog.Json.Printer
import Worklog.Json.Reader
import Worklog.Log.Draft
import Worklog.Log.Record
import Worklog.Log.Setup
import Worklog.Log.Template
import Worklog.Moment
import Worklog.Moment.Iso
import Worklog.Moment.Reader
import Worklog.Moment.Text
import Worklog.Number.Double
import Worklog.Number.Extended
import Worklog.Number.Places
import Worklog.Number.Shortest
import Worklog.Proofs.Database.Atomic
import Worklog.Proofs.Database.Beside
import Worklog.Proofs.Database.Calm
import Worklog.Proofs.Database.Catalog
import Worklog.Proofs.Database.Contract
import Worklog.Proofs.Database.Evaluate
import Worklog.Proofs.Database.History
import Worklog.Proofs.Database.Ledger
import Worklog.Proofs.Database.Primitives
import Worklog.Proofs.Database.Tasks
import Worklog.Proofs.Database.Work
import Worklog.Proofs.Field.Description
import Worklog.Proofs.Http.Asked
import Worklog.Proofs.Http.Endings
import Worklog.Proofs.Http.Labels
import Worklog.Proofs.Http.Operation
import Worklog.Proofs.Report.Laws
import Worklog.Proofs.Report.Order
import Worklog.Proofs.Report.Parts
import Worklog.Proofs.Report.Selection
import Worklog.Proofs.Report.Totals
import Worklog.Proofs.Report.Unnamed
import Worklog.Proofs.Report.Worked
import Worklog.Proofs.Schedule.Board
import Worklog.Proofs.Schedule.Health
import Worklog.Proofs.Schedule.History
import Worklog.Proofs.Schedule.Linear
import Worklog.Proofs.Schedule.Overtaking
import Worklog.Proofs.Schedule.Serial
import Worklog.Proofs.Schedule.Steady
import Worklog.Proofs.Schedule.System
import Worklog.Proofs.Session.Accrual
import Worklog.Proofs.Session.Apart
import Worklog.Proofs.Session.Beside
import Worklog.Proofs.Session.Calls
import Worklog.Proofs.Session.Calm
import Worklog.Proofs.Session.Loaded
import Worklog.Report
import Worklog.Run
import Worklog.Schema
import Worklog.Schema.Cell
import Worklog.Schema.Cells
import Worklog.Schema.Change
import Worklog.Schema.Place
import Worklog.Schema.Statement
import Worklog.Session.Call
import Worklog.Session.Scenario
import Worklog.Settings
import Worklog.Settings.Address
import Worklog.Settings.Connection
import Worklog.Settings.Dotenv
import Worklog.Settings.Options
import Worklog.Store.Column
import Worklog.Store.Complaint
import Worklog.Store.Intervals
import Worklog.Store.Ledger
import Worklog.Store.Number
import Worklog.Store.Rejection
import Worklog.Store.Scope
import Worklog.Store.Tasks
import Worklog.Text.Blank
import Worklog.Text.Capital
import Worklog.Text.Case
import Worklog.Text.CharSet
import Worklog.Text.Decimal
import Worklog.Text.Digits
import Worklog.Text.Encoding
import Worklog.Text.Hidden
import Worklog.Text.Numeral
import Worklog.Text.Percent
import Worklog.Text.Quoted
import Worklog.Text.Separated
import Worklog.Text.Shown
import Worklog.Text.Utf8
import Worklog.Text.Word
import Worklog.Uuid
import Worklog.Window
import Worklog.Proofs.Database.CalmTasks
import Worklog.Proofs.Http.Bodies
import Worklog.Proofs.Http.Catalog
import Worklog.Proofs.Database.Upheld
import Worklog.Proofs.Http.Descriptions
import Worklog.Proofs.Database.Reworded
import Worklog.Proofs.Http.Discretion
import Worklog.Proofs.Schema.Rules
import Worklog.Proofs.Schema.Migrated
import Worklog.Proofs.Report.Limits
import Worklog.Proofs.Calendar
import Worklog.Proofs.Database.TimeColumn
import Worklog.Proofs.Session.Attribution
import Worklog.Proofs.Database.Undone
import Worklog.Proofs.Number.Rounding
import Worklog.Proofs.Duration
import Worklog.Proofs.Settings.Address
import Worklog.Proofs.Json.Written
import Worklog.Proofs.Log.Line
import Worklog.Proofs.Moment.Text
import Worklog.Proofs.Http.Returned
import Worklog.Proofs.Report.Clipping
