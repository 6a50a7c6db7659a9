import Worklog.Proofs.Database.Ledger

namespace Worklog

namespace Ledger

variable {l : Ledger} {prepared : Bool} {id : Uuid} {key : KeyRef} {rows : List Row}

theorem require_eq_error_iff {holds : Bool} {c : Constraint} {x : Rejection} :
    require holds c = .error x ↔ holds = false ∧ x = .violates c := by
  cases holds <;> simp [require, eq_comm]

theorem required_eq_error_iff {column : String} {value : Option Ident} {x : Rejection} :
    required column value = .error x ↔ value = none ∧ x = .violates (.present column) := by
  cases value <;> simp [required, eq_comm]

/-- An ending before the start of the row it ends violates a constraint. -/
theorem closeRow_of_early {stopped : Moment} {ended : Instant} (hrows : l.rows = some rows)
    (hstop : Instant.ofMoment stopped = .ok ended) {r : Row} (hr : r ∈ rows)
    (hopen : r.isOpenWith id = true) (hearly : ended.micros < r.started.micros) :
    closeRow id stopped l = .error (.violates .stopAfterStart) := by
  have hall : (rows.all fun r => !r.isOpenWith id || (r.stoppedAt ended).inOrder) = false := by
    rw [List.all_eq_false]
    refine ⟨r, hr, ?_⟩
    rw [hopen, Bool.not_true, Bool.false_or, Row.inOrder_iff]
    intro horder
    exact absurd (horder ended rfl) (Nat.not_le.mpr hearly)
  simp only [closeRow, bindTime_eq_ok_iff.mpr hstop, rowTable_eq_ok_iff.mpr hrows, require, Bind.bind,
    Except.bind, hall]
  rfl

theorem rowTable_ne_violates (c : Constraint) : l.rowTable ≠ .error (.violates c) := by
  unfold rowTable
  cases l.rows <;> rintro ⟨⟩

theorem insertTables_ne_violates (c : Constraint) : l.insertTables ≠ .error (.violates c) := by
  unfold insertTables rowTable referenced
  cases l.rows <;> cases l.foreignKeys <;> cases l.tasks <;> rintro ⟨⟩

theorem bindIdent_ne_violates (i : Option Ident) (c : Constraint) :
    bindIdent i ≠ .error (.violates c) := by
  intro h
  unfold bindIdent bindInt at h
  split at h
  · cases h
  · split at h <;> cases h
  · cases h

theorem bindKey_ne_violates (c : Constraint) : bindKey key ≠ .error (.violates c) := by
  unfold bindKey
  cases huser : bindIdent key.user with
  | error x =>
    rintro ⟨⟩
    exact bindIdent_ne_violates _ _ huser
  | ok user =>
    cases htask : bindIdent key.task with
    | error x =>
      rintro ⟨⟩
      exact bindIdent_ne_violates _ _ htask
    | ok task => rintro ⟨⟩

theorem bindTime_ne_violates (m : Moment) (c : Constraint) : bindTime m ≠ .error (.violates c) := by
  unfold bindTime
  cases Instant.ofMoment m <;> rintro ⟨⟩

theorem bindTime_of_unstorable {m : Moment} (h : ¬ m.Storable) :
    ∃ fault, bindTime m = .error (.time fault) := by
  cases htime : Instant.ofMoment m with
  | ok i => exact absurd (Instant.storable_iff.mpr ⟨i, htime⟩) h
  | error fault =>
    refine ⟨fault, ?_⟩
    rw [bindTime, htime]
    rfl

/-- Bounds that cannot be stored are refused before anything else is looked at. -/
theorem overlappingRows_of_unstorable {start stop : Moment} (h : ¬ (start.Storable ∧ stop.Storable))
    (user : Option Ident) : ∃ fault, ∀ prepared,
      overlappingRows prepared user start stop l = .error (.time fault) := by
  by_cases hstop : stop.Storable
  · obtain ⟨last, hlast⟩ := Instant.storable_iff.mp hstop
    obtain ⟨fault, hfault⟩ := bindTime_of_unstorable fun hstart => h ⟨hstart, hstop⟩
    refine ⟨fault, fun prepared => ?_⟩
    simp only [overlappingRows, bindTime_eq_ok_iff.mpr hlast, hfault]
    rfl
  · obtain ⟨fault, hfault⟩ := bindTime_of_unstorable hstop
    refine ⟨fault, fun prepared => ?_⟩
    simp only [overlappingRows, hfault]
    rfl

theorem bindTime?_ne_violates (m : Option Moment) (c : Constraint) :
    bindTime? m ≠ .error (.violates c) := by
  cases m with
  | none => rintro ⟨⟩
  | some m =>
    intro h
    cases htime : bindTime m with
    | ok i =>
      rw [bindTime?, htime] at h
      cases h
    | error x =>
      rw [bindTime?, htime] at h
      cases h
      exact bindTime_ne_violates m c htime

/-- The check of an ending finds fault with a row that starts later. -/
theorem early_of_closeRow {stopped : Moment} {c : Constraint}
    (h : closeRow id stopped l = .error (.violates c)) :
    ∃ rows ended, l.rows = some rows ∧ Instant.ofMoment stopped = .ok ended ∧
      ∃ r ∈ rows, r.isOpenWith id = true ∧ ended.micros < r.started.micros := by
  unfold closeRow at h
  rw [except_bind_eq_error_iff] at h
  obtain h | ⟨ended, hend, h⟩ := h
  · exact absurd h (bindTime_ne_violates _ _)
  rw [except_bind_eq_error_iff] at h
  obtain h | ⟨rows, hrows, h⟩ := h
  · exact absurd h (rowTable_ne_violates c)
  rw [except_bind_eq_error_iff] at h
  obtain h | ⟨_, _, h⟩ := h
  · obtain ⟨r, hr, hfault⟩ := List.all_eq_false.mp (require_eq_error_iff.mp h).1
    refine ⟨rows, ended, rowTable_eq_ok_iff.mp hrows, bindTime_eq_ok_iff.mp hend, r, hr, ?_⟩
    rw [Bool.or_eq_true, not_or, Bool.not_eq_true', Bool.not_eq_false, Row.inOrder_iff] at hfault
    obtain ⟨hopen, horder⟩ := hfault
    refine ⟨hopen, Nat.not_le.mp fun hle => horder ?_⟩
    rintro _ ⟨⟩
    exact hle
  · cases h

/-- Constraints are looked at when tables and values are there, in whatever order they were. -/
theorem prepare_of_violates {α β γ : Type} {tables : Except Rejection α} {values : Except Rejection β}
    {f : α × β → Except Rejection γ} {c : Constraint} (htables : tables ≠ .error (.violates c))
    (hvalues : values ≠ .error (.violates c))
    (h : (prepare prepared tables values >>= f) = .error (.violates c)) :
    ∃ a b, f (a, b) = .error (.violates c) ∧
      ∀ prepared', prepare prepared' tables values = .ok (a, b) := by
  cases tables with
  | error x =>
    cases values <;> cases prepared <;> cases h <;> simp_all
  | ok a =>
    cases values with
    | error y => cases prepared <;> cases h <;> simp_all
    | ok b =>
      refine ⟨a, b, ?_, fun prepared' => prepare_eq_ok_iff.mpr ⟨rfl, rfl⟩⟩
      cases prepared <;> exact h

/-- An insertion that a constraint rejects is rejected whether or not it has been prepared. -/
theorem insertRow_of_violates {started : Moment} {stopped : Option Moment} {c : Constraint}
    (h : insertRow prepared id key started stopped l = .error (.violates c)) (prepared' : Bool) :
    insertRow prepared' id key started stopped l = .error (.violates c) := by
  unfold insertRow at h ⊢
  cases hstart : bindTime started with
  | error x =>
    rw [hstart] at h
    exact h
  | ok i =>
    cases hstop : bindTime? stopped with
    | error x =>
      rw [hstart, hstop] at h
      exact h
    | ok ended =>
      rw [hstart, hstop] at h
      obtain ⟨tables, values, hrest, hprepare⟩ :=
        prepare_of_violates (insertTables_ne_violates c) (bindKey_ne_violates c) h
      simp only [hprepare prepared']
      exact hrest

/-- The only columns that an insertion finds empty are those of the key. -/
theorem column_of_insertRow {started : Moment} {stopped : Option Moment} {column : String}
    (h : insertRow prepared id key started stopped l = .error (.violates (.present column))) :
    column = "user_id" ∨ column = "task_id" := by
  unfold insertRow at h
  rw [except_bind_eq_error_iff] at h
  obtain h | ⟨i, _, h⟩ := h
  · exact absurd h (bindTime_ne_violates _ _)
  rw [except_bind_eq_error_iff] at h
  obtain h | ⟨ended, _, h⟩ := h
  · exact absurd h (bindTime?_ne_violates _ _)
  obtain ⟨⟨rows, parents⟩, key', h, _⟩ :=
    prepare_of_violates (insertTables_ne_violates _) (bindKey_ne_violates _) h
  simp only [except_bind_eq_error_iff, require_eq_error_iff, required_eq_error_iff, pure, Except.pure,
    reduceCtorEq, Rejection.violates.injEq, and_false, exists_false, or_false, Constraint.present.injEq] at h
  obtain ⟨_, rfl⟩ | ⟨_, _, _, rfl⟩ := h
  · exact .inl rfl
  · exact .inr rfl

theorem rowTable_ne_tooWide : l.rowTable ≠ .error .tooWide := by
  unfold rowTable
  cases l.rows <;> rintro ⟨⟩

theorem insertTables_ne_tooWide : l.insertTables ≠ .error .tooWide := by
  unfold insertTables rowTable referenced
  cases l.rows <;> cases l.foreignKeys <;> cases l.tasks <;> rintro ⟨⟩

theorem bindTime_ne_tooWide (m : Moment) : bindTime m ≠ .error .tooWide := by
  unfold bindTime
  cases Instant.ofMoment m <;> rintro ⟨⟩

theorem prepare_of_tooWide {α β : Type} {tables : Except Rejection α} {values : Except Rejection β}
    (htables : tables ≠ .error .tooWide) (h : prepare prepared tables values = .error .tooWide) :
    values = .error .tooWide := by
  cases tables with
  | error x => cases values <;> cases prepared <;> cases h <;> simp_all
  | ok a => cases values <;> cases prepared <;> cases h <;> rfl

theorem prepare_of_values {α β : Type} {tables : Except Rejection α} {values : Except Rejection β}
    {a : α} {x : Rejection} (htables : tables = .ok a) (hvalues : values = .error x) :
    prepare prepared tables values = .error x := by
  subst htables hvalues
  cases prepared <;> rfl

/-- A read of the intervals of a user outside 64 bits is refused, once its bounds and its table are in
    order. -/
theorem overlappingRows_of_wide {user : Int} {start stop : Moment} (hrows : l.rows = some rows)
    (hwide : Integer.fits64 user = false) (hstart : start.Storable) (hstop : stop.Storable)
    (prepared : Bool) : overlappingRows prepared (some (.int user)) start stop l = .error .tooWide := by
  obtain ⟨first, hfirst⟩ := Instant.storable_iff.mp hstart
  obtain ⟨last, hlast⟩ := Instant.storable_iff.mp hstop
  have hbind : bindIdent (some (.int user)) = .error .tooWide := by
    simp only [bindIdent, bindInt, hwide]
    rfl
  have hprepare : prepare prepared l.rowTable (bindIdent (some (.int user))) = .error .tooWide :=
    prepare_of_values (rowTable_eq_ok_iff.mpr hrows) hbind
  simp only [overlappingRows, bindTime_eq_ok_iff.mpr hfirst, bindTime_eq_ok_iff.mpr hlast, hprepare]
  rfl

/-- An insertion finds an integer too wide only in its key. -/
theorem bindKey_of_insertRow {started : Moment}
    (h : insertRow prepared id key started none l = .error .tooWide) : bindKey key = .error .tooWide := by
  unfold insertRow at h
  rw [except_bind_eq_error_iff] at h
  obtain h | ⟨_, _, h⟩ := h
  · exact absurd h (bindTime_ne_tooWide _)
  rw [except_bind_eq_error_iff] at h
  obtain h | ⟨_, _, h⟩ := h
  · cases h
  rw [except_bind_eq_error_iff] at h
  obtain h | ⟨_, _, h⟩ := h
  · exact prepare_of_tooWide insertTables_ne_tooWide h
  · simp only [except_bind_eq_error_iff, require_eq_error_iff, required_eq_error_iff, pure, Except.pure,
      reduceCtorEq, and_false, exists_false, or_false] at h

theorem bindKey_of_openRows (h : openRows prepared key l = .error .tooWide) :
    bindKey key = .error .tooWide := by
  unfold openRows at h
  rw [except_bind_eq_error_iff] at h
  obtain h | ⟨_, _, h⟩ := h
  · exact prepare_of_tooWide rowTable_ne_tooWide h
  · cases h

theorem closeRow_ne_tooWide (id : Uuid) (stopped : Moment) (l : Ledger) :
    closeRow id stopped l ≠ .error .tooWide := by
  intro h
  simp only [closeRow, except_bind_eq_error_iff, require_eq_error_iff, pure, Except.pure, reduceCtorEq,
    and_false, exists_false, or_false] at h
  obtain h | ⟨_, _, h⟩ := h
  · exact bindTime_ne_tooWide _ h
  · exact rowTable_ne_tooWide h

/-- Of the keys of integers those within 64 bits can be taken over. -/
theorem bindKey_tooWide_iff (user task : Int) :
    bindKey ⟨some (.int user), some (.int task)⟩ = .error .tooWide ↔
      ¬ KeyRef.fits ⟨some (.int user), some (.int task)⟩ = true := by
  cases huser : Integer.fits64 user <;> cases htask : Integer.fits64 task <;>
    simp [bindKey, bindIdent, bindInt, KeyRef.fits, huser, htask, Except.map, Bind.bind, Except.bind,
      pure, Except.pure]

end Ledger

namespace Rejection

theorem raised_cases (x : Rejection) :
    (∃ e, x.raised = .storage e) ∨ x = .tooWide ∧ x.raised = .fault .tooWide := by
  cases x with
  | time fault => cases fault <;> exact .inl ⟨_, rfl⟩
  | tooWide => exact .inr ⟨rfl, rfl⟩
  | noTable | full | violates => exact .inl ⟨_, rfl⟩

end Rejection

end Worklog
