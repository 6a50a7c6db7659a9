import Mathlib.Data.List.Basic
import Worklog.Proofs.Run
import Worklog.Schema.Cells

namespace Worklog

/-- The column without what the database fills in. -/
def Column.unstamped (c : Column) : Column := { c with stamped := false }

/-- What decides which rows a table takes: the table without what the database fills in and without the indexes
    that forbid nothing. -/
def Table.rules (t : Table) : Table :=
  { t with columns := t.columns.map Column.unstamped, indexes := t.indexes.filter (·.unique) }

namespace Sheet

variable (t : Table) (row other : List Cell) (others : List (List Cell)) (column : String)
  (columns : List String)

theorem zip_rules : t.rules.columns.zip row = (t.columns.zip row).map (Prod.map Column.unstamped id) :=
  List.zip_map_left

@[simp] theorem cell_rules : cell t.rules row column = cell t row column := by
  rw [cell, zip_rules, List.find?_map, Option.elim_map]
  rfl

@[simp] theorem cells_rules : cells t.rules row columns = cells t row columns := by
  simp only [cells, funext (cell_rules t row)]

@[simp] theorem agree_rules : agree t.rules row other columns = agree t row other columns := by
  simp only [agree, cell_rules]

@[simp] theorem missing?_rules : missing? t.rules row = missing? t row := by
  rw [missing?, zip_rules, List.find?_map, Option.map_map]
  rfl

@[simp] theorem holds_rules (c : OrderCheck) : holds t.rules row c = holds t row c := by
  simp only [holds, cell_rules]

@[simp] theorem failing?_rules : failing? t.rules row = failing? t row := by
  simp only [failing?, holds_rules]
  rfl

@[simp] theorem covered_rules (i : Index) : covered t.rules i row = covered t i row := by
  simp only [covered, cell_rules]

@[simp] theorem clashes_rules (i : Index) : clashes t.rules others row i = clashes t others row i := by
  simp only [clashes, covered_rules, agree_rules]

/-- An index that forbids nothing is not the first that another row holds already. -/
theorem find?_clashes_rules :
    t.rules.indexes.find? (clashes t others row) = t.indexes.find? (clashes t others row) := by
  change (t.indexes.filter (·.unique)).find? _ = _
  rw [List.find?_filter]
  congr 1
  funext i
  by_cases h : i.unique = true
  · simp only [h, true_and, Bool.decide_eq_true]
  · simp [clashes, h]

@[simp] theorem taken?_rules : taken? t.rules others row = taken? t others row := by
  have hclashes : clashes t.rules others row = clashes t others row := funext (clashes_rules t row others)
  simp only [taken?, hclashes, find?_clashes_rules, agree_rules]
  rfl

@[simp] theorem violated?_rules : violated? t.rules others row = violated? t others row := by
  simp only [violated?, missing?_rules, failing?_rules, taken?_rules]

@[simp] theorem isCounted_rules (c : Column) : isCounted t.rules c.unstamped = isCounted t c := rfl

@[simp] theorem nextKey_rules : nextKey t.rules others = nextKey t others := by
  simp only [nextKey, cells_rules]
  rfl

/-- The sheet with the rules of its table. -/
def rules (s : Sheet) : Sheet := { s with table := s.table.rules }

end Sheet

namespace Cells

variable {db : Cells} {s : Sheet} {name column stamp stamp' : String} {values : List (String × Cell)}
  {meets : Table → List Cell → Bool}

/-- Whether the database could have filled a column in does not count when its cell is given. -/
theorem filled_rules {c : Column} (h : c.stamped = true → c.name ∈ values.map (·.1)) :
    filled s.rules stamp' values c.unstamped = filled s stamp values c := by
  have hgiven : c.stamped = true → ∃ v, values.find? (·.1 = c.name) = some v := by
    intro hstamped
    obtain ⟨v, hv, hvname⟩ := List.mem_map.mp (h hstamped)
    exact Option.isSome_iff_exists.mp (List.find?_isSome.mpr ⟨v, hv, decide_eq_true hvname⟩)
  have hcell : ((values.find? (·.1 = c.unstamped.name)).map (·.2)).map (Cell.fit c.unstamped.type) =
      ((values.find? (·.1 = c.name)).map (·.2)).map (Cell.fit c.type) := rfl
  simp only [filled, Sheet.rules, Sheet.isCounted_rules, Sheet.nextKey_rules, hcell]
  cases hstamped : c.stamped with
  | false => simp only [Column.unstamped, Bool.false_eq_true, if_false]
  | true =>
    obtain ⟨v, hv⟩ := hgiven hstamped
    simp only [hv, Option.map_some, Option.getD_some]

theorem row_rules (h : ∀ c ∈ s.table.columns, c.stamped = true → c.name ∈ values.map (·.1)) :
    s.rules.table.columns.mapM (filled s.rules stamp' values) =
      s.table.columns.mapM (filled s stamp values) := by
  change (s.table.columns.map Column.unstamped).mapM _ = _
  revert h
  generalize s.table.columns = cs
  intro h
  induction cs with
  | nil => rfl
  | cons c rest ih =>
    obtain ⟨hc, hrest⟩ := List.forall_mem_cons.mp h
    rw [List.map_cons, List.mapM_cons, List.mapM_cons, filled_rules hc, ih hrest]

theorem withCell_rules (t : Table) (value : Cell) (row : List Cell) :
    withCell t.rules column value row = withCell t column value row := by
  rw [withCell, Sheet.zip_rules, List.map_map]
  rfl

theorem updateRows_rules (t : Table) (value : Cell) (meets : List Cell → Bool)
    (done rest : List (List Cell)) :
    updateRows t.rules column value meets done rest = updateRows t column value meets done rest := by
  induction rest generalizing done with
  | nil => rfl
  | cons row rest ih => simp only [updateRows, withCell_rules, Sheet.violated?_rules, ih]

/-- The tables of a database. -/
def tables (db : Cells) : List Table := db.sheets.map (·.table)

/-- The database with the rules of its tables, but without the revision that it remembers. -/
def core (db : Cells) : Cells :=
  { db with sheets := (db.sheets.filter (·.table.name ≠ Revision.versions.name)).map Sheet.rules }

theorem find?_core (hname : name ≠ Revision.versions.name) :
    db.core.sheets.find? (·.table.name = name) = (db.sheets.find? (·.table.name = name)).map Sheet.rules := by
  rw [core, List.find?_map, List.find?_filter]
  congr 2
  funext s
  by_cases h : s.table.name = name
  · simp [Sheet.rules, Table.rules, h, hname]
  · simp [Sheet.rules, Table.rules, h]

theorem sheet_core (hname : name ≠ Revision.versions.name) :
    db.core.sheet name = (db.sheet name).map Sheet.rules := by
  rw [sheet, find?_core hname, sheet]
  cases db.sheets.find? (·.table.name = name) with
  | none => rfl
  | some s => rfl

theorem table_of_sheet (h : db.sheet name = .ok s) : s.table ∈ db.tables ∧ s.table.name = name := by
  rw [sheet] at h
  cases hs : db.sheets.find? (·.table.name = name) with
  | none => rw [hs] at h; cases h
  | some found =>
    rw [hs] at h
    cases h
    exact ⟨List.mem_map_of_mem (List.mem_of_find?_eq_some hs), by simpa using List.find?_some hs⟩

/-- What is done to the rows of every sheet leaves the tables. -/
theorem tables_map {f : Sheet → Sheet} (hf : ∀ s, (f s).table = s.table) :
    { db with sheets := db.sheets.map f : Cells }.tables = db.tables := by
  simp only [tables, List.map_map, Function.comp_def, hf]

theorem core_map {f g : Sheet → Sheet} (hf : ∀ s, (f s).table = s.table)
    (hg : ∀ s, (f s).rules = g s.rules) :
    { db with sheets := db.sheets.map f : Cells }.core = { db.core with sheets := db.core.sheets.map g } := by
  simp only [core, List.filter_map, List.map_map, Function.comp_def, hf, hg]

theorem setRows_core (rows : List (List Cell)) : (db.setRows name rows).core = db.core.setRows name rows := by
  refine core_map (fun s => ?_) fun s => ?_
  · split <;> rfl
  · by_cases h : s.table.name = name
    · rw [if_pos h, if_pos (show s.rules.table.name = name from h)]
      rfl
    · rw [if_neg h, if_neg (show s.rules.table.name ≠ name from h)]

theorem setRows_tables (rows : List (List Cell)) : (db.setRows name rows).tables = db.tables :=
  tables_map fun s => by split <;> rfl

/-- References to other tables than that of the revision find what they find in the core. -/
theorem referred_core {t : Table} (h : ∀ r ∈ t.references, r.table ≠ Revision.versions.name)
    (row : List Cell) : db.core.referred t.rules row = db.referred t row := by
  rw [referred, referred, Bool.eq_iff_iff]
  simp only [Bool.or_eq_true, List.all_eq_true]
  refine or_congr Iff.rfl (forall₂_congr fun r hr => ?_)
  rw [find?_core (h r hr)]
  cases db.sheets.find? (·.table.name = r.table) with
  | none => exact Iff.rfl
  | some parent => simp only [Option.map_some, Sheet.rules, Sheet.cell_rules]

/-- What a statement that gives some columns needs of the table that it inserts into: nothing else is filled
    in, and no reference leads to the revision. -/
structure Filled (given : List String) (t : Table) : Prop where
  stamped : ∀ c ∈ t.columns, c.stamped = true → c.name ∈ given
  references : ∀ r ∈ t.references, r.table ≠ Revision.versions.name

/-- What is done with a sheet can be done with the sheet of the core, if it can be done with its rules. -/
theorem sheet_bind_core {α β : Type} {f : Sheet → Except CellFault α} {g : Sheet → Except CellFault β}
    {m : α → β} (hname : name ≠ Revision.versions.name)
    (h : ∀ s, s.table ∈ db.tables → s.table.name = name → g s.rules = (f s).map m) :
    (db.core.sheet name >>= g) = (db.sheet name >>= f).map m := by
  rw [sheet_core hname]
  cases hs : db.sheet name with
  | error e => rfl
  | ok s => exact h s (table_of_sheet hs).1 (table_of_sheet hs).2

theorem insert_core (hname : name ≠ Revision.versions.name)
    (htables : ∀ t ∈ db.tables, t.name = name → Filled (values.map (·.1)) t) :
    db.core.insert stamp' name values = (db.insert stamp name values).map core := by
  refine sheet_bind_core hname fun s hmem hsname => ?_
  obtain ⟨hstamped, hreferences⟩ := htables _ hmem hsname
  refine except_bind_map fun _ _ => ?_
  rw [row_rules hstamped]
  refine except_bind_map fun row _ => ?_
  change (forbid (Sheet.violated? s.table.rules s.rows row) >>= fun _ =>
    forbid (if db.core.referred s.table.rules row then none else some .reference) >>= fun _ => _) = _
  rw [Sheet.violated?_rules, referred_core hreferences]
  refine except_bind_map fun _ _ => except_bind_map fun _ _ => ?_
  exact congrArg Except.ok (setRows_core _).symm

theorem update_core (hname : name ≠ Revision.versions.name) (hmeets : ∀ t, meets t.rules = meets t)
    (value : Cell) :
    db.core.update name column value meets = (db.update name column value meets).map (Prod.map id core) := by
  refine sheet_bind_core hname fun s _ _ => except_bind_map fun _ _ => ?_
  change (updateRows s.table.rules column value (meets s.table.rules) [] s.rows >>= fun rows =>
    pure (s.rows.countP (meets s.table.rules), db.core.setRows name rows)) = _
  rw [hmeets, updateRows_rules]
  refine except_bind_map fun rows _ => ?_
  exact congrArg (fun db => Except.ok (s.rows.countP (meets s.table), db)) (setRows_core rows).symm

theorem kept_rules (t : Table) (gone : List (List Cell)) (s : Sheet) :
    (kept name t gone s).rules = kept name t.rules gone s.rules := by
  simp only [kept, Sheet.rules, Sheet.cell_rules]
  rfl

theorem delete_core (hname : name ≠ Revision.versions.name) (hmeets : ∀ t, meets t.rules = meets t) :
    db.core.delete name meets = (db.delete name meets).map core := by
  refine sheet_bind_core hname fun s _ _ => congrArg Except.ok ?_
  rw [apply_ite core, setRows_core]
  change (if db.foreignKeys then _ else _) = _
  simp only [Sheet.rules, hmeets]
  refine if_congr Iff.rfl ?_ rfl
  rw [← setRows_core]
  exact (core_map (f := kept name s.table (s.rows.filter (meets s.table))) (fun _ => rfl)
    (kept_rules s.table _)).symm

theorem select_core (hname : name ≠ Revision.versions.name) (hmeets : ∀ t, meets t.rules = meets t) :
    db.core.select name meets = db.select name meets := by
  have hselect : db.core.select name meets = (db.select name meets).map id := by
    refine sheet_bind_core hname fun s _ _ => congrArg Except.ok ?_
    simp only [Sheet.rules, hmeets, Sheet.cells_rules]
    rfl
  rw [hselect]
  cases db.select name meets with
  | error e => rfl
  | ok rows => rfl

end Cells
end Worklog
