import Worklog.Schema.Cell
import Worklog.Schema.Place

namespace Worklog

/-- A constraint that a statement violates. -/
inductive Violated where
  | missing (table column : String)
  | check (name : String)
  | unique (table : String) (columns : List String)
  | reference
  /-- A counted key is no integer. -/
  | kind
  deriving DecidableEq, Repr

/-- Why a statement on cells fails. -/
inductive CellFault where
  | violated (v : Violated)
  | noTable (name : String)
  | tooWide
  deriving DecidableEq, Repr

/-- The wording of a violation. -/
def Violated.message : Violated → String
  | missing table column => "NOT NULL constraint failed: " ++ table ++ "." ++ column
  | check name => "CHECK constraint failed: " ++ name
  | unique table columns =>
    "UNIQUE constraint failed: " ++ String.intercalate ", " (columns.map fun c => table ++ "." ++ c)
  | reference => "FOREIGN KEY constraint failed"
  | kind => "datatype mismatch"

/-- A table with its rows, which have a cell for each column. -/
structure Sheet where
  table : Table
  rows : List (List Cell) := []
  deriving DecidableEq, Repr

/-- The sheets of a database; references are enforced or not. -/
structure Cells where
  sheets : List Sheet := []
  foreignKeys : Bool := false
  deriving DecidableEq, Repr

namespace Sheet

/-- The cell of a row in a column. -/
def cell (t : Table) (row : List Cell) (column : String) : Cell :=
  ((t.columns.zip row).find? fun p => p.1.name = column).elim .null (·.2)

/-- The cells of a row in some columns. -/
def cells (t : Table) (row : List Cell) (columns : List String) : List Cell :=
  columns.map (cell t row)

/-- Two rows hold the same in some columns. -/
def agree (t : Table) (a b : List Cell) (columns : List String) : Bool :=
  columns.all fun column => (cell t a column).same (cell t b column)

/-- The columns that must have a value and have none. -/
def missing? (t : Table) (row : List Cell) : Option Violated :=
  ((t.columns.zip row).find? fun p => p.1.required && p.2.isNull).map
    fun p => .missing t.name p.1.name

/-- A check holds of a row; nothing can be said against an empty cell. -/
def holds (t : Table) (row : List Cell) (c : OrderCheck) : Bool :=
  let upper := cell t row c.upper
  upper.isNull || (cell t row c.lower).isNull || (cell t row c.lower).atMost upper

/-- The first check that fails. -/
def failing? (t : Table) (row : List Cell) : Option Violated :=
  (t.checks.find? fun c => !holds t row c).map fun c => .check c.name

/-- A row is covered by an index. -/
def covered (t : Table) (i : Index) (row : List Cell) : Bool :=
  i.whereEmpty.all fun column => (cell t row column).isNull

/-- Another row has the same cells in a unique index that covers both. -/
def clashes (t : Table) (others : List (List Cell)) (row : List Cell) (i : Index) : Bool :=
  i.unique && covered t i row &&
    others.any fun other => covered t i other && agree t other row i.columns

/-- The first unique index or key that another row holds already. -/
def taken? (t : Table) (others : List (List Cell)) (row : List Cell) : Option Violated :=
  match t.indexes.find? (clashes t others row) with
  | some i => some (.unique t.name i.columns)
  | none =>
    if others.any fun other => agree t other row t.key.columns then
      some (.unique t.name t.key.columns)
    else none

/-- The first constraint of the table that a row would violate beside others. -/
def violated? (t : Table) (others : List (List Cell)) (row : List Cell) : Option Violated :=
  (missing? t row).or ((failing? t row).or (taken? t others row))

/-- The key is counted: a single integer column. -/
def isCounted (t : Table) (c : Column) : Bool :=
  t.key.columns == [c.name] && c.type == .integer

/-- The next key of a counted table. -/
def nextKey (t : Table) (rows : List (List Cell)) : Int :=
  let keys := rows.filterMap fun row => match cells t row t.key.columns with
    | [.int n] => some n
    | _ => none
  match keys with
  | [] => 1
  | first :: rest => rest.foldl max first + 1

end Sheet

namespace Cells

/-- The sheet with a name. -/
def sheet (name : String) (db : Cells) : Except CellFault Sheet :=
  match db.sheets.find? (·.table.name = name) with
  | some s => .ok s
  | none => .error (.noTable name)

/-- Replaces the rows of a table. -/
def setRows (name : String) (rows : List (List Cell)) (db : Cells) : Cells :=
  { db with sheets := db.sheets.map fun s => if s.table.name = name then { s with rows } else s }

/-- A value for a statement. -/
def bind (c : Cell) : Except CellFault Unit :=
  match c with
  | .int n => if Integer.fits64 n then .ok () else .error .tooWide
  | _ => .ok ()

/-- A constraint that must not be violated. -/
def forbid (v : Option Violated) : Except CellFault Unit :=
  v.elim (.ok ()) fun v => .error (.violated v)

/-- The cell of a new row in a column: what is given, or what the database fills in. -/
def filled (s : Sheet) (stamp : String) (values : List (String × Cell)) (c : Column) :
    Except CellFault Cell :=
  let given := ((values.find? (·.1 = c.name)).map (·.2)).map (Cell.fit c.type)
  if Sheet.isCounted s.table c then
    match given.getD .null with
    | .null => .ok (.int (Sheet.nextKey s.table s.rows))
    | .int n => .ok (.int n)
    | _ => .error (.violated .kind)
  else .ok (given.getD (if c.stamped then .text stamp else .null))

/-- Every reference of a row has its row, if references are enforced. -/
def referred (t : Table) (row : List Cell) (db : Cells) : Bool :=
  !db.foreignKeys || t.references.all fun r =>
    match db.sheets.find? (·.table.name = r.table) with
    | some parent =>
      parent.rows.any fun other =>
        (Sheet.cell parent.table other r.target).same (Sheet.cell t row r.column)
    | none => false

/-- Inserts a row. `stamp` is the time of the insertion. -/
def insert (stamp name : String) (values : List (String × Cell)) (db : Cells) :
    Except CellFault Cells := do
  let s ← db.sheet name
  values.forM fun v => bind v.2
  let row ← s.table.columns.mapM (filled s stamp values)
  forbid (Sheet.violated? s.table s.rows row)
  forbid (if db.referred s.table row then none else some .reference)
  return db.setRows name (s.rows ++ [row])

/-- A row with another cell in a column. -/
def withCell (t : Table) (column : String) (value : Cell) (row : List Cell) : List Cell :=
  (t.columns.zip row).map fun p => if p.1.name = column then value.fit p.1.type else p.2

/-- Sets a column in the rows that meet a condition, one after the other. -/
def updateRows (t : Table) (column : String) (value : Cell) (meets : List Cell → Bool) :
    List (List Cell) → List (List Cell) → Except CellFault (List (List Cell))
  | done, [] => .ok done
  | done, row :: rest =>
    if meets row then do
      let changed := withCell t column value row
      forbid (Sheet.violated? t (done ++ rest) changed)
      updateRows t column value meets (done ++ [changed]) rest
    else updateRows t column value meets (done ++ [row]) rest

/-- Sets a column in the rows that meet a condition; tells how many there are. -/
def update (name column : String) (value : Cell) (meets : Table → List Cell → Bool) (db : Cells) :
    Except CellFault (Nat × Cells) := do
  let s ← db.sheet name
  bind value
  let rows ← updateRows s.table column value (meets s.table) [] s.rows
  return (s.rows.countP (meets s.table), db.setRows name rows)

/-- The rows of a sheet that refer to none of the rows that go. -/
def kept (name : String) (t : Table) (gone : List (List Cell)) (s : Sheet) : Sheet :=
  { s with rows := s.rows.filter fun row =>
      s.table.references.all fun r => r.table != name ||
        !gone.any fun other => (Sheet.cell t other r.target).same (Sheet.cell s.table row r.column) }

/-- Deletes the rows that meet a condition, with the rows that refer to them if references are
    enforced. -/
def delete (name : String) (meets : Table → List Cell → Bool) (db : Cells) :
    Except CellFault Cells := do
  let s ← db.sheet name
  let gone := s.rows.filter (meets s.table)
  let left := db.setRows name (s.rows.filter fun row => !meets s.table row)
  return if db.foreignKeys then { left with sheets := left.sheets.map (kept name s.table gone) }
    else left

/-- The rows of a table that meet a condition, by their key. -/
def select (name : String) (meets : Table → List Cell → Bool) (db : Cells) :
    Except CellFault (List (List Cell)) := do
  let s ← db.sheet name
  let first := fun row => (Sheet.cells s.table row s.table.key.columns).head?.getD .null
  return (s.rows.filter (meets s.table)).mergeSort fun a b => (first a).atMost (first b)

/-- The condition that a column equals a value, brought to the type of the column. Nothing equals
    null. -/
def equals (column : String) (value : Cell) (t : Table) (row : List Cell) : Bool :=
  let type := ((t.columns.find? (·.name = column)).map (·.type)).getD .text
  !value.isNull && (Sheet.cell t row column).same (value.fit type)

/-- Sheets without rows for a schema. -/
def ofSchema (s : Schema) (foreignKeys : Bool := false) : Cells :=
  ⟨s.map fun t => { table := t }, foreignKeys⟩

/-- Carries a change of the schema out. -/
def change (db : Cells) : Change → Cells
  | .createTable t => { db with sheets := db.sheets ++ [{ table := t }] }
  | .dropTable name => { db with sheets := db.sheets.filter (·.table.name ≠ name) }
  | c =>
    { db with sheets := db.sheets.map fun s =>
        { s with table := (Change.apply [s.table] c).headD s.table } }

/-- Where the database is: it remembers a revision, or it is empty. -/
def place (db : Cells) : Revision.Place :=
  match db.sheet Revision.versions.name with
  | .ok s => if s.rows.isEmpty then .empty else .newest
  | .error _ => .empty

/-- Makes sure that the database can remember its revision. -/
def withVersions (db : Cells) : Cells :=
  match db.sheet Revision.versions.name with
  | .ok _ => db
  | .error _ => db.change (.createTable Revision.versions)

/-- Takes the database from where it is to a place. -/
def travel (stop : Revision.Place) (db : Cells) : Cells :=
  let r := Revision.initial
  match db.place, stop with
  | .empty, .newest => (r.upgrade.foldl change db).setRows Revision.versions.name [[.text r.id]]
  | .newest, .empty => (r.downgrade.foldl change db).setRows Revision.versions.name []
  | _, _ => db

/-- Takes the database to the place that `goal` finds from where it is. The start is known, so a range
    is refused before anything else; after that the database can remember its revision even if there
    is no such place. -/
def go (goal : Revision.Place → String → Except Revision.Unreachable Revision.Place) (name : String)
    (db : Cells) : Except Revision.Unreachable Unit × Cells :=
  if name.toList.contains ':' then (.error .needlessRange, db)
  else
    let db := db.withVersions
    match goal db.place name with
    | .ok stop => (.ok (), db.travel stop)
    | .error u => (.error u, db)

/-- Upgrades the database to a named place. -/
def upgrade (name : String) (db : Cells) : Except Revision.Unreachable Unit × Cells :=
  db.go Revision.raise name

/-- Takes the database back to a named place. -/
def downgrade (name : String) (db : Cells) : Except Revision.Unreachable Unit × Cells :=
  db.go Revision.lower name

end Cells
end Worklog
