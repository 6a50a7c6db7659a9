import Worklog.Proofs.Schema.Rules

namespace Worklog

/-- What a statement asks of a row. Nothing is said of an empty cell, and nothing compares with one. -/
inductive Condition where
  | equals (column : String) (value : Cell)
  | among (column : String) (values : List Cell)
  | empty (column : String)
  | before (column : String) (value : Cell)
  | after (column : String) (value : Cell)
  | both (a b : Condition)
  | either (a b : Condition)
  | always

namespace Condition

/-- The value as it is compared with a column. -/
def fitted (t : Table) (column : String) (value : Cell) : Cell :=
  value.fit (((t.columns.find? (·.name = column)).map (·.type)).getD .text)

/-- Both cells hold something, and the first is below the second. -/
def precedes (a b : Cell) : Bool := !a.isNull && !b.isNull && !b.atMost a

def meets : Condition → Table → List Cell → Bool
  | equals column value, t, row => Cells.equals column value t row
  | among column values, t, row => values.any fun value => Cells.equals column value t row
  | empty column, t, row => (Sheet.cell t row column).isNull
  | before column value, t, row => precedes (Sheet.cell t row column) (fitted t column value)
  | after column value, t, row => precedes (fitted t column value) (Sheet.cell t row column)
  | both a b, t, row => a.meets t row && b.meets t row
  | either a b, t, row => a.meets t row || b.meets t row
  | always, _, _ => true

/-- The values that are bound to the condition. -/
def values : Condition → List Cell
  | equals _ value | before _ value | after _ value => [value]
  | among _ values => values
  | both a b | either a b => a.values ++ b.values
  | empty _ | always => []

end Condition

namespace Cells

/-- What a statement answers. -/
inductive Answer where
  | done
  | changed (count : Nat)
  | found (rows : List (List Cell))
  deriving DecidableEq, Repr

/-- A statement on rows. A selection may be cut to a number of rows after another. -/
inductive Command where
  | insert (table : String) (values : List (String × Cell))
  | update (table column : String) (value : Cell) (rows : Condition)
  | delete (table : String) (rows : Condition)
  | select (table : String) (rows : Condition) (page : Option (Nat × Nat))

/-- The rows of a page. -/
def paged {α : Type} (page : Option (Nat × Nat)) (rows : List α) : List α :=
  page.elim rows fun p => (rows.drop p.2).take p.1

namespace Command

/-- Carries a statement out at a time of the database. -/
def run (stamp : String) (c : Command) (db : Cells) : Except CellFault (Answer × Cells) :=
  match c with
  | insert table values => (db.insert stamp table values).map fun db => (.done, db)
  | update table column value rows => do
    rows.values.forM bind
    (db.update table column value rows.meets).map fun r => (.changed r.1, r.2)
  | delete table rows => do
    rows.values.forM bind
    (db.delete table rows.meets).map fun db => (.done, db)
  | select table rows page => do
    (rows.values ++ page.elim [] fun p => [Cell.int p.1, Cell.int p.2]).forM bind
    (db.select table rows.meets).map fun found => (.found (paged page found), db)

/-- A statement that is rejected leaves the database as it is. -/
def step (stamp : String) (c : Command) (db : Cells) : Except CellFault Answer × Cells :=
  match c.run stamp db with
  | .ok (answer, after) => (.ok answer, after)
  | .error e => (.error e, db)

end Command

/-- Every answer to a list of statements, with the database after it. `stamps` are the times of the
    database. -/
def course (stamps : Nat → String) (db : Cells) : List Command → List (Except CellFault Answer × Cells)
  | [] => []
  | c :: rest =>
    c.step (stamps 0) db :: course (fun n => stamps (n + 1)) (c.step (stamps 0) db).2 rest

/-- The rows of a table, each cell under the name of its column. -/
def content (name : String) (db : Cells) : Except CellFault (List (List (String × Cell))) :=
  (db.sheet name).map fun s => s.rows.map (s.table.columns.map (·.name)).zip

/-- An answer with the tasks and the intervals after it. -/
def shown (r : Except CellFault Answer × Cells) :=
  (r.1, r.2.content Schema.tasksName, r.2.content Schema.intervalsName)

end Cells

/-- The statements of the service, with any values. The id of a task is counted up unless one is given. -/
inductive ServiceCommand where
  | insertTask (id : Option Cell) (description created : Cell)
  | describeTask (id description : Cell)
  | deleteTask (id : Cell)
  | findTask (id : Cell)
  | taskPage (limit offset : Nat)
  | tasksAmong (ids : List Cell)
  | insertInterval (id user task started stopped : Cell)
  | closeInterval (id stopped : Cell)
  | findInterval (id : Cell)
  | openIntervals (user task : Cell)
  | overlapping (user start stop : Cell)

namespace ServiceCommand

open Cells Condition

def command : ServiceCommand → Command
  | insertTask id description created =>
    .insert Schema.tasksName
      ([("description", description), ("created_at", created)] ++ (id.map ("id", ·)).toList)
  | describeTask id description => .update Schema.tasksName "description" description (equals "id" id)
  | deleteTask id => .delete Schema.tasksName (equals "id" id)
  | findTask id => .select Schema.tasksName (equals "id" id) none
  | taskPage limit offset => .select Schema.tasksName always (some (limit, offset))
  | tasksAmong ids => .select Schema.tasksName (among "id" ids) none
  | insertInterval id user task started stopped =>
    .insert Schema.intervalsName [("id", id), ("user_id", user), ("task_id", task), ("started_at", started),
      ("stopped_at", stopped)]
  | closeInterval id stopped =>
    .update Schema.intervalsName "stopped_at" stopped (both (equals "id" id) (empty "stopped_at"))
  | findInterval id => .select Schema.intervalsName (equals "id" id) none
  | openIntervals user task =>
    .select Schema.intervalsName
      (both (both (equals "user_id" user) (equals "task_id" task)) (empty "stopped_at")) none
  | overlapping user start stop =>
    .select Schema.intervalsName
      (both (both (equals "user_id" user) (before "started_at" stop))
        (either (empty "stopped_at") (after "stopped_at" start))) none

end ServiceCommand

namespace Condition

theorem typed_rules (t : Table) (column : String) :
    (t.rules.columns.find? (·.name = column)).map (·.type) =
      (t.columns.find? (·.name = column)).map (·.type) := by
  change ((t.columns.map Column.unstamped).find? _).map _ = _
  rw [List.find?_map, Option.map_map]
  rfl

@[simp] theorem equals_rules (column : String) (value : Cell) (t : Table) :
    Cells.equals column value t.rules = Cells.equals column value t := by
  funext row
  simp only [Cells.equals, typed_rules, Sheet.cell_rules]

@[simp] theorem fitted_rules (t : Table) (column : String) (value : Cell) :
    fitted t.rules column value = fitted t column value := by
  simp only [fitted, typed_rules]

/-- Conditions look at the rules of a table only. -/
theorem meets_rules (c : Condition) (t : Table) : c.meets t.rules = c.meets t := by
  funext row
  induction c with
  | equals | among => simp only [meets, equals_rules]
  | empty | before | after => simp only [meets, fitted_rules, Sheet.cell_rules]
  | always => rfl
  | both a b iha ihb | either a b iha ihb => simp only [meets, iha, ihb]

end Condition

namespace Cells

variable {db db' : Cells} {stamp stamp' : String} {c : Command}

/-- The statement is not about the revision, and an insertion gives all columns that the database could
    fill in. -/
def Command.Suits (tables : List Table) : Command → Prop
  | insert table values =>
    table ≠ Revision.versions.name ∧ ∀ t ∈ tables, t.name = table → Filled (values.map (·.1)) t
  | update table _ _ _ | delete table _ | select table _ _ => table ≠ Revision.versions.name

theorem Command.run_core (h : c.Suits db.tables) :
    c.run stamp' db.core = (c.run stamp db).map (Prod.map id core) := by
  cases c with
  | insert table values =>
    rw [run, insert_core h.1 h.2, run, except_map_map, except_map_map]
    rfl
  | update table column value rows =>
    refine except_bind_map fun _ _ => ?_
    rw [update_core h rows.meets_rules, except_map_map, except_map_map]
    rfl
  | delete table rows =>
    refine except_bind_map fun _ _ => ?_
    rw [delete_core h rows.meets_rules, except_map_map, except_map_map]
    rfl
  | select table rows page =>
    refine except_bind_map fun _ _ => ?_
    rw [select_core h rows.meets_rules, except_map_map]
    rfl

theorem Command.step_core (h : c.Suits db.tables) :
    c.step stamp' db.core = Prod.map id core (c.step stamp db) := by
  rw [step, run_core h, step]
  cases c.run stamp db with
  | error e => rfl
  | ok r => rfl

theorem insert_tables {name : String} {values : List (String × Cell)}
    (h : db.insert stamp name values = .ok db') : db'.tables = db.tables := by
  obtain ⟨s, _, h⟩ := except_bind_eq_ok_iff.mp h
  obtain ⟨_, _, h⟩ := except_bind_eq_ok_iff.mp h
  obtain ⟨row, _, h⟩ := except_bind_eq_ok_iff.mp h
  obtain ⟨_, _, h⟩ := except_bind_eq_ok_iff.mp h
  obtain ⟨_, _, h⟩ := except_bind_eq_ok_iff.mp h
  cases h
  exact setRows_tables _

theorem update_tables {name column : String} {value : Cell} {meets : Table → List Cell → Bool} {n : Nat}
    (h : db.update name column value meets = .ok (n, db')) : db'.tables = db.tables := by
  obtain ⟨s, _, h⟩ := except_bind_eq_ok_iff.mp h
  obtain ⟨_, _, h⟩ := except_bind_eq_ok_iff.mp h
  obtain ⟨rows, _, h⟩ := except_bind_eq_ok_iff.mp h
  cases h
  exact setRows_tables _

theorem delete_tables {name : String} {meets : Table → List Cell → Bool}
    (h : db.delete name meets = .ok db') : db'.tables = db.tables := by
  obtain ⟨s, _, h⟩ := except_bind_eq_ok_iff.mp h
  cases h
  split
  · exact (tables_map (f := kept name s.table (s.rows.filter (meets s.table))) fun _ => rfl).trans
      (setRows_tables _)
  · exact setRows_tables _

theorem Command.run_tables {answer : Answer} (h : c.run stamp db = .ok (answer, db')) :
    db'.tables = db.tables := by
  cases c with
  | insert table values =>
    obtain ⟨after, hafter, hr⟩ := except_map_eq_ok_iff.mp h
    cases hr
    exact insert_tables hafter
  | update table column value rows =>
    obtain ⟨_, _, h⟩ := except_bind_eq_ok_iff.mp h
    obtain ⟨⟨n, after⟩, hafter, hr⟩ := except_map_eq_ok_iff.mp h
    cases hr
    exact update_tables hafter
  | delete table rows =>
    obtain ⟨_, _, h⟩ := except_bind_eq_ok_iff.mp h
    obtain ⟨after, hafter, hr⟩ := except_map_eq_ok_iff.mp h
    cases hr
    exact delete_tables hafter
  | select table rows page =>
    obtain ⟨_, _, h⟩ := except_bind_eq_ok_iff.mp h
    obtain ⟨found, _, hr⟩ := except_map_eq_ok_iff.mp h
    cases hr
    rfl

theorem Command.step_tables : (c.step stamp db).2.tables = db.tables := by
  rw [step]
  cases h : c.run stamp db with
  | error e => rfl
  | ok r => exact run_tables h

theorem content_core {name : String} (hname : name ≠ Revision.versions.name) :
    db.core.content name = db.content name := by
  rw [content, sheet_core hname, content]
  cases db.sheet name with
  | error e => rfl
  | ok s =>
    have hnames : s.rules.table.columns.map (·.name) = s.table.columns.map (·.name) :=
      List.map_map.trans rfl
    exact congrArg (fun names => Except.ok (s.rows.map names.zip)) hnames

theorem shown_core (r : Except CellFault Answer × Cells) : shown (Prod.map id core r) = shown r := by
  have htasks : r.2.core.content Schema.tasksName = r.2.content Schema.tasksName := content_core (by decide)
  have hintervals : r.2.core.content Schema.intervalsName = r.2.content Schema.intervalsName :=
    content_core (by decide)
  simp only [shown, Prod.map, id, htasks, hintervals]

theorem course_core {stamps stamps' : Nat → String} {commands : List Command}
    (h : ∀ c ∈ commands, c.Suits db.tables) :
    course stamps' db.core commands = (course stamps db commands).map (Prod.map id core) := by
  -- What suits the tables goes on suiting them, because no statement changes a table.
  induction commands generalizing stamps stamps' db with
  | nil => rfl
  | cons c rest ih =>
    obtain ⟨hc, hrest⟩ := List.forall_mem_cons.mp h
    have hstep := @Command.step_core db (stamps 0) (stamps' 0) c hc
    have htables := @Command.step_tables db (stamps 0) c
    rw [← htables] at hrest
    rw [course, hstep]
    exact congrArg (Prod.map id core (c.step (stamps 0) db) :: ·) (ih hrest)

/-- Databases of the same rules and rows show the same, whatever times they have. -/
theorem shown_of_core {stamps stamps' : Nat → String} {commands : List Command} (hcore : db.core = db'.core)
    (h : ∀ c ∈ commands, c.Suits db.tables) (h' : ∀ c ∈ commands, c.Suits db'.tables) :
    (course stamps db commands).map shown = (course stamps' db' commands).map shown := by
  have hshown : shown ∘ Prod.map id core = shown := funext shown_core
  have hcourse := @course_core db stamps stamps' commands h
  rw [hcore, @course_core db' stamps' stamps' commands h'] at hcourse
  have hmapped := congrArg (List.map shown) hcourse
  rw [List.map_map, List.map_map, hshown] at hmapped
  exact hmapped.symm

/-- No table refers to the revision, and nothing but the time of a task's creation is filled in. -/
structure Plain (t : Table) : Prop where
  stamped : ∀ c ∈ t.columns, c.stamped = true → t.name = Schema.tasksName ∧ c.name = "created_at"
  references : ∀ r ∈ t.references, r.table ≠ Revision.versions.name

theorem suits_of_plain {tables : List Table} (h : ∀ t ∈ tables, Plain t) (c : ServiceCommand) :
    c.command.Suits tables := by
  cases c with
  | insertTask id description created =>
    refine ⟨by decide, fun t ht _ => ⟨fun column hcolumn hstamped => ?_, (h t ht).references⟩⟩
    obtain ⟨_, hname⟩ := (h t ht).stamped column hcolumn hstamped
    rw [hname]
    exact List.mem_cons_of_mem _ List.mem_cons_self
  | insertInterval id user task started stopped =>
    refine ⟨by decide, fun t ht hname => ⟨fun column hcolumn hstamped => ?_, (h t ht).references⟩⟩
    obtain ⟨htasks, _⟩ := (h t ht).stamped column hcolumn hstamped
    exact absurd (hname.symm.trans htasks) (by decide)
  | _ =>
    change (_ : String) ≠ _
    decide

/-- The database that is brought to the newest revision from nothing. -/
def migrated (foreignKeys : Bool) : Cells := (upgrade "head" { foreignKeys }).2

theorem migrated_core (foreignKeys : Bool) :
    (migrated foreignKeys).core = (ofSchema Schema.declared foreignKeys).core := by
  cases foreignKeys <;> decide +kernel

theorem plain_migrated (foreignKeys : Bool) : ∀ t ∈ (migrated foreignKeys).tables, Plain t := by
  have htables : (migrated foreignKeys).tables = Revision.versions :: Revision.newest := by
    cases foreignKeys <;> decide +kernel
  have hstamped : ∀ t ∈ Revision.versions :: Revision.newest, ∀ c ∈ t.columns, c.stamped = true →
      t.name = Schema.tasksName ∧ c.name = "created_at" := by decide
  have hreferences : ∀ t ∈ Revision.versions :: Revision.newest, ∀ r ∈ t.references,
      r.table ≠ Revision.versions.name := by decide
  rw [htables]
  exact fun t ht => ⟨hstamped t ht, hreferences t ht⟩

theorem plain_declared (foreignKeys : Bool) :
    ∀ t ∈ (ofSchema Schema.declared foreignKeys).tables, Plain t := by
  have hstamped : ∀ t ∈ Schema.declared, ∀ c ∈ t.columns, c.stamped = true →
      t.name = Schema.tasksName ∧ c.name = "created_at" := by decide
  have hreferences : ∀ t ∈ Schema.declared, ∀ r ∈ t.references, r.table ≠ Revision.versions.name := by
    decide
  exact fun t ht => ⟨hstamped t ht, hreferences t ht⟩

/-- The service's statements are accepted and rejected alike by a migrated database and by one that was
    created as declared, for the same constraint, and leave the same tasks and intervals after each. -/
theorem migrated_as_declared (foreignKeys : Bool) (stamps stamps' : Nat → String)
    (commands : List ServiceCommand) :
    (upgrade "head" { foreignKeys }).1 = .ok () ∧
      (course stamps (migrated foreignKeys) (commands.map (·.command))).map shown =
        (course stamps' (ofSchema Schema.declared foreignKeys) (commands.map (·.command))).map shown := by
  refine ⟨by cases foreignKeys <;> decide +kernel, shown_of_core (migrated_core foreignKeys) ?_ ?_⟩
  · exact List.forall_mem_map.mpr fun c _ => suits_of_plain (plain_migrated foreignKeys) c
  · exact List.forall_mem_map.mpr fun c _ => suits_of_plain (plain_declared foreignKeys) c

/-- A closed interval does not stand in the way of another one of its key, but an open one does. -/
example :
    let interval (id stopped : Cell) : ServiceCommand := .insertInterval id (.int 42) (.int 7) (.text "10") stopped
    (course (fun _ => "") (migrated false) ([interval (.text "a") (.text "11"), interval (.text "b") .null,
        interval (.text "c") .null, .closeInterval (.text "b") (.text "9")].map (·.command))).map (·.1) =
      [.ok .done, .ok .done,
        .error (.violated (.unique Schema.intervalsName ["user_id", "task_id"])),
        .error (.violated (.check "ck_work_intervals_stop_after_start"))] := by
  decide +kernel

end Cells
end Worklog
