import Worklog.Proofs.Run
import Worklog.Store.Ledger

namespace Worklog

namespace Moment

/-- The database can store the moment: it is aware and universal time keeps it in the calendar. -/
def Storable (m : Moment) : Prop := m.isAware = true ∧ 0 ≤ m.instant ∧ m.instant < calendarMicros

instance (m : Moment) : Decidable m.Storable := inferInstanceAs (Decidable (_ ∧ _ ∧ _))

end Moment

namespace Instant

theorem ofMoment_eq_ok_iff {m : Moment} {i : Instant} :
    ofMoment m = .ok i ↔ m.isAware = true ∧ (i.micros : Int) = m.instant := by
  unfold ofMoment ofMicros
  constructor
  · intro h
    split at h
    · next haware =>
      split at h
      · next hrange =>
        cases h
        exact ⟨haware, Int.toNat_of_nonneg hrange.1⟩
      · cases h
    · cases h
  · rintro ⟨haware, hmicros⟩
    have hrange : 0 ≤ m.instant ∧ m.instant.toNat < calendarMicros := by
      rw [← hmicros]
      exact ⟨Int.natCast_nonneg _, by simpa using i.micros_lt⟩
    rw [if_pos haware, dif_pos hrange]
    congr
    rw [← hmicros, Int.toNat_natCast]

theorem storable_iff {m : Moment} : m.Storable ↔ ∃ i, ofMoment m = .ok i := by
  constructor
  · rintro ⟨haware, hnonneg, hlt⟩
    refine ⟨⟨m.instant.toNat, by omega⟩, ?_⟩
    rw [ofMoment_eq_ok_iff]
    exact ⟨haware, Int.toNat_of_nonneg hnonneg⟩
  · rintro ⟨i, hi⟩
    obtain ⟨haware, hmicros⟩ := ofMoment_eq_ok_iff.mp hi
    have hlt := i.micros_lt
    exact ⟨haware, by omega, by omega⟩

theorem toUtc_of_ofMoment {m : Moment} {i : Instant} (h : ofMoment m = .ok i) :
    m.toUtc = .ok i.toMoment := by
  have haware := (ofMoment_eq_ok_iff.mp h).1
  unfold ofMoment at h
  rw [if_pos haware] at h
  rw [Moment.toUtc, if_pos haware, h]
  rfl

theorem instant_toMoment (i : Instant) : i.toMoment.instant = i.micros := by
  simp [toMoment, Moment.instant, Moment.offsetMicros, Offset.utc]

end Instant

namespace KeyRef

/-- The key names its user and its task by integers of 64 bits. -/
def fits : KeyRef → Bool
  | ⟨some (.int user), some (.int task)⟩ => Integer.fits64 user && Integer.fits64 task
  | _ => false

theorem fits_iff {key : KeyRef} : key.fits = true ↔ ∃ user task : Int,
    Integer.fits64 user = true ∧ Integer.fits64 task = true ∧
      key = ⟨some (.int user), some (.int task)⟩ := by
  constructor
  · intro h
    unfold fits at h
    split at h
    · next user task =>
      rw [Bool.and_eq_true] at h
      exact ⟨user, task, h.1, h.2, rfl⟩
    · cases h
  · rintro ⟨user, task, huser, htask, rfl⟩
    simp [fits, huser, htask]

/-- The key as the database stores it. -/
def stored (key : KeyRef) : KeyRef := ⟨key.user.bind Ident.stored, key.task.bind Ident.stored⟩

theorem stored_of_fits {key : KeyRef} (h : key.fits = true) : key.stored = key := by
  obtain ⟨user, task, _, _, rfl⟩ := fits_iff.mp h
  rfl

end KeyRef

theorem Key.ref_injective {a b : Key} (h : a.ref = b.ref) : a = b := by
  cases a
  cases b
  cases h
  rfl

namespace Row

theorem isOpen_iff {r : Row} : r.isOpen = true ↔ r.stopped = none := by
  simp [isOpen, Option.isNone_iff_eq_none]

theorem isOpenFor_iff {key : KeyRef} {r : Row} :
    r.isOpenFor key = true ↔ r.key.ref = key ∧ r.stopped = none := by
  simp [isOpenFor, isOpen_iff]

theorem isOpenWith_iff {id : Uuid} {r : Row} :
    r.isOpenWith id = true ↔ r.id = id ∧ r.stopped = none := by
  simp [isOpenWith, isOpen_iff]

theorem inOrder_iff {r : Row} :
    r.inOrder = true ↔ ∀ ended, r.stopped = some ended → r.started.micros ≤ ended.micros := by
  cases hstopped : r.stopped <;> simp [inOrder, hstopped]

/-- What the ending of the interval with an id makes of a row. -/
def closing (id : Uuid) (ended : Instant) (r : Row) : Row :=
  if r.isOpenWith id then r.stoppedAt ended else r

@[simp] theorem closing_id (id : Uuid) (ended : Instant) (r : Row) : (r.closing id ended).id = r.id := by
  unfold closing
  split <;> rfl

@[simp] theorem closing_key (id : Uuid) (ended : Instant) (r : Row) :
    (r.closing id ended).key = r.key := by
  unfold closing
  split <;> rfl

@[simp] theorem closing_started (id : Uuid) (ended : Instant) (r : Row) :
    (r.closing id ended).started = r.started := by
  unfold closing
  split <;> rfl

theorem closing_of_open {id : Uuid} {r : Row} (h : r.isOpenWith id = true) (ended : Instant) :
    (r.closing id ended).stopped = some ended := by
  rw [closing, if_pos h]
  rfl

theorem closing_of_not_open {id : Uuid} {r : Row} (h : ¬ r.isOpenWith id = true) (ended : Instant) :
    r.closing id ended = r := if_neg h

theorem closing_of_closed {r : Row} {earlier : Instant} (h : r.stopped = some earlier) (id : Uuid)
    (ended : Instant) : r.closing id ended = r := by
  refine closing_of_not_open (fun hopen => ?_) ended
  rw [(isOpenWith_iff.mp hopen).2] at h
  cases h

end Row

namespace Ledger

variable {l l' : Ledger} {prepared : Bool} {id : Uuid} {key : KeyRef} {rows : List Row}

theorem require_eq_ok_iff {holds : Bool} {c : Constraint} {u : Unit} :
    require holds c = .ok u ↔ holds = true := by
  cases holds <;> simp [require]

theorem required_eq_ok_iff {column : String} {value : Option Ident} {i : Ident} :
    required column value = .ok i ↔ value = some i := by
  cases value <;> simp [required]

theorem prepare_eq_ok_iff {α β : Type} {tables : Except Rejection α} {values : Except Rejection β}
    {a : α} {b : β} :
    prepare prepared tables values = .ok (a, b) ↔ tables = .ok a ∧ values = .ok b := by
  unfold prepare
  split
  · simp only [except_bind_eq_ok_iff, pure, Except.pure, Except.ok.injEq, Prod.mk.injEq]
    constructor
    · rintro ⟨b', hb, a', ha, rfl, rfl⟩
      exact ⟨ha, hb⟩
    · rintro ⟨ha, hb⟩
      exact ⟨b, hb, a, ha, rfl, rfl⟩
  · simp only [except_bind_eq_ok_iff, pure, Except.pure, Except.ok.injEq, Prod.mk.injEq]
    constructor
    · rintro ⟨a', ha, b', hb, rfl, rfl⟩
      exact ⟨ha, hb⟩
    · rintro ⟨ha, hb⟩
      exact ⟨a, ha, b, hb, rfl, rfl⟩

theorem rowTable_eq_ok_iff : l.rowTable = .ok rows ↔ l.rows = some rows := by
  cases h : l.rows <;> simp [rowTable, h]

theorem bindTime_eq_ok_iff {m : Moment} {i : Instant} :
    bindTime m = .ok i ↔ Instant.ofMoment m = .ok i := by
  unfold bindTime
  cases Instant.ofMoment m with
  | ok i' =>
    constructor <;> intro h <;> cases h <;> rfl
  | error e =>
    constructor <;> intro h <;> cases h

theorem bindInt_of_fits {n : Int} (h : Integer.fits64 n = true) : bindInt n = .ok () := by
  simp [bindInt, h]

theorem bindKey_of_fits (h : key.fits = true) : bindKey key = .ok key := by
  obtain ⟨user, task, huser, htask, rfl⟩ := KeyRef.fits_iff.mp h
  simp [bindKey, bindIdent, bindInt_of_fits, huser, htask, Except.map, Bind.bind, Except.bind, pure,
    Except.pure]

/-- An insertion that is carried out: the table gains one row under a new id, with the times that were
    bound, and no key has two open rows by it. -/
theorem insertRow_eq_ok {started : Moment} {stopped : Option Moment} {row : Row}
    (h : insertRow prepared id key started stopped l = .ok (row, l')) :
    ∃ rows, l.rows = some rows ∧ l' = { l with rows := some (rows ++ [row]) } ∧ row.id = id ∧
      Instant.ofMoment started = .ok row.started ∧ bindTime? stopped = .ok row.stopped ∧
      row.inOrder = true ∧
      (l.openUnique = true → row.isOpen = true → ∀ r ∈ rows, ¬ r.isOpenFor row.key.ref = true) ∧
      ∀ r ∈ rows, r.id ≠ id := by
  unfold insertRow at h
  simp only [except_bind_eq_ok_iff] at h
  obtain ⟨i, hstart, stop, hstop, ⟨⟨rows, parents⟩, key'⟩, hprepare, h⟩ := h
  obtain ⟨htables, _⟩ := prepare_eq_ok_iff.mp hprepare
  simp only [require_eq_ok_iff, required_eq_ok_iff] at h
  obtain ⟨user, huser, task, htask, _, horder, _, hopen, _, hid, _, _, h⟩ := h
  cases h
  have hkey : key' = (⟨user, task⟩ : Key).ref := by
    cases key'
    cases huser
    cases htask
    rfl
  refine ⟨rows, ?_, rfl, rfl, bindTime_eq_ok_iff.mp hstart, hstop, horder, ?_, ?_⟩
  · simp only [insertTables, except_bind_eq_ok_iff] at htables
    obtain ⟨rows', hrows, parents', _, hpair⟩ := htables
    cases hpair
    exact rowTable_eq_ok_iff.mp hrows
  · intro hunique hisOpen r hr hfor
    subst hkey
    simp only [hunique, hisOpen, Bool.true_and, Bool.not_eq_true', List.any_eq_false] at hopen
    exact hopen r hr hfor
  · intro r hr hsame
    simp only [Bool.not_eq_true', List.any_eq_false, decide_eq_true_eq] at hid
    exact hid r hr hsame

theorem bindIdent_eq_ok {i j : Option Ident} (h : bindIdent i = .ok j) : j = i.bind Ident.stored := by
  unfold bindIdent at h
  split at h
  · cases h
    rfl
  · next n =>
    cases hfits : bindInt n with
    | error x =>
      rw [hfits] at h
      cases h
    | ok _ =>
      rw [hfits] at h
      cases h
      rfl
  · cases h
    rfl

theorem bindKey_eq_ok {key' : KeyRef} (h : bindKey key = .ok key') : key' = key.stored := by
  simp only [bindKey, except_bind_eq_ok_iff] at h
  obtain ⟨user, huser, task, htask, hkey⟩ := h
  cases hkey
  rw [bindIdent_eq_ok huser, bindIdent_eq_ok htask]
  rfl

/-- The row of a carried-out insertion has its key as the database stores it. -/
theorem ref_of_insertRow {started : Moment} {stopped : Option Moment} {row : Row}
    (h : insertRow prepared id key started stopped l = .ok (row, l')) : row.key.ref = key.stored := by
  simp only [insertRow, except_bind_eq_ok_iff] at h
  obtain ⟨_, _, _, _, ⟨⟨_, _⟩, key'⟩, hprepare, h⟩ := h
  have hstored := bindKey_eq_ok (prepare_eq_ok_iff.mp hprepare).2
  simp only [required_eq_ok_iff] at h
  obtain ⟨user, huser, task, htask, _, _, _, _, _, _, _, _, h⟩ := h
  cases h
  rw [← hstored]
  cases key'
  cases huser
  cases htask
  rfl

/-- A key of 64-bit integers is stored as it is. -/
theorem key_of_insertRow {started : Moment} {stopped : Option Moment} {row : Row}
    (hkey : key.fits = true) (h : insertRow prepared id key started stopped l = .ok (row, l')) :
    row.key.ref = key :=
  (ref_of_insertRow h).trans (KeyRef.stored_of_fits hkey)

/-- An ending that is carried out: the open row with the id, if there is one, gets its end, which is not
    before its start. -/
theorem closeRow_eq_ok {stopped : Moment} {n : Nat} (h : closeRow id stopped l = .ok (n, l')) :
    ∃ rows ended, l.rows = some rows ∧ Instant.ofMoment stopped = .ok ended ∧
      (∀ r ∈ rows, r.isOpenWith id = true → r.started.micros ≤ ended.micros) ∧
      n = rows.countP (Row.isOpenWith id) ∧
      l' = { l with rows := some (rows.map (Row.closing id ended)) } := by
  unfold closeRow at h
  simp only [except_bind_eq_ok_iff, require_eq_ok_iff] at h
  obtain ⟨ended, hstop, rows, hrows, _, horder, h⟩ := h
  cases h
  refine ⟨rows, ended, rowTable_eq_ok_iff.mp hrows, bindTime_eq_ok_iff.mp hstop, ?_, rfl, rfl⟩
  intro r hr hopen
  have hfine := List.all_eq_true.mp horder r hr
  simp only [hopen, Bool.not_true, Bool.false_or] at hfine
  exact Row.inOrder_iff.mp hfine ended rfl

/-- The open rows of a key are looked for under the key as it is stored. -/
theorem openRows_eq_ok {opened : List Row} (h : openRows prepared key l = .ok opened) :
    ∃ rows key', l.rows = some rows ∧ opened = rows.filter (Row.isOpenFor key') := by
  unfold openRows at h
  rw [except_bind_eq_ok_iff] at h
  obtain ⟨⟨rows, key'⟩, hprepare, h⟩ := h
  cases h
  exact ⟨rows, key', rowTable_eq_ok_iff.mp (prepare_eq_ok_iff.mp hprepare).1, rfl⟩

/-- The task of a key can be referred to: its record is stored, if the database asks for one. -/
def admits (key : KeyRef) (l : Ledger) : Bool :=
  !l.foreignKeys || (l.tasks.getD []).any fun t => some (.int t.id) = key.task

/-- The open rows of a key of 64-bit integers. -/
theorem openRows_of_fits (hrows : l.rows = some rows) (hkey : key.fits = true) :
    openRows prepared key l = .ok (rows.filter (Row.isOpenFor key)) := by
  have hprepare : prepare prepared l.rowTable (bindKey key) = .ok (rows, key) :=
    prepare_eq_ok_iff.mpr ⟨rowTable_eq_ok_iff.mpr hrows, bindKey_of_fits hkey⟩
  simp only [openRows, hprepare]
  rfl

/-- The tables of an insertion whose task can be referred to. -/
private theorem insertTables_of_admits (hrows : l.rows = some rows) (hadmits : l.admits key = true) :
    ∃ parents, l.insertTables = .ok (rows, parents) ∧
      (!l.foreignKeys || parents.any fun t => some (.int t.id) = key.task) = true := by
  have htable := rowTable_eq_ok_iff.mpr hrows
  unfold admits at hadmits
  cases hforeign : l.foreignKeys with
  | false =>
    refine ⟨[], ?_, rfl⟩
    simp only [insertTables, htable, referenced, hforeign]
    rfl
  | true =>
    rw [hforeign] at hadmits
    cases htasks : l.tasks with
    | none => simp [htasks] at hadmits
    | some tasks =>
      refine ⟨tasks, ?_, by simpa [htasks] using hadmits⟩
      simp only [insertTables, htable, referenced, hforeign, htasks]
      rfl

/-- An insertion for a key of 64-bit integers without an end, as far as its constraints. -/
private theorem insertRow_of_fits (prepared : Bool) (id : Uuid) {started : Moment} {i : Instant}
    (hrows : l.rows = some rows) (hkey : key.fits = true) (hstart : Instant.ofMoment started = .ok i)
    (hadmits : l.admits key = true) :
    ∃ row : Row, row.id = id ∧ row.key.ref = key ∧ row.started = i ∧ row.stopped = none ∧
      insertRow prepared id key started none l = (do
        require (!(l.openUnique && rows.any (Row.isOpenFor key))) .oneOpen
        require (!rows.any (·.id = id)) .ownId
        return (row, { l with rows := some (rows ++ [row]) })) := by
  obtain ⟨parents, htables, hparent⟩ := insertTables_of_admits hrows hadmits
  have hprepare : prepare prepared l.insertTables (bindKey key) = .ok ((rows, parents), key) :=
    prepare_eq_ok_iff.mpr ⟨htables, bindKey_of_fits hkey⟩
  obtain ⟨user, task, huser, htask, rfl⟩ := KeyRef.fits_iff.mp hkey
  refine ⟨⟨id, .int user, .int task, i, none⟩, rfl, rfl, rfl, rfl, ?_⟩
  have hforeign : (!l.foreignKeys || parents.any fun t => Ident.int t.id = .int task) = true := by
    simpa using hparent
  simp only [insertRow, bindTime_eq_ok_iff.mpr hstart, hprepare]
  simp only [bindTime?, Bind.bind, Except.bind, required, Option.elim, Row.inOrder, Option.all, require,
    if_true, Row.isOpen, Option.isNone_none, Bool.and_true, hforeign]

/-- An insertion for a key that has an open row is rejected for that reason. -/
theorem insertRow_of_open (prepared : Bool) (id : Uuid) {started : Moment} {i : Instant}
    (hrows : l.rows = some rows) (hkey : key.fits = true) (hstart : Instant.ofMoment started = .ok i)
    (hadmits : l.admits key = true) (hunique : l.openUnique = true) {r : Row} (hr : r ∈ rows)
    (hopen : r.isOpenFor key = true) :
    insertRow prepared id key started none l = .error (.violates .oneOpen) := by
  obtain ⟨row, _, _, _, _, hinsert⟩ := insertRow_of_fits prepared id hrows hkey hstart hadmits
  have hany : rows.any (Row.isOpenFor key) = true := List.any_eq_true.mpr ⟨r, hr, hopen⟩
  rw [hinsert, hunique, hany]
  rfl

/-- An insertion under a new id for a key without an open row is carried out. -/
theorem insertRow_of_free (prepared : Bool) {started : Moment} {i : Instant}
    (hrows : l.rows = some rows) (hkey : key.fits = true) (hstart : Instant.ofMoment started = .ok i)
    (hadmits : l.admits key = true) (hfree : ∀ r ∈ rows, ¬ r.isOpenFor key = true)
    (hnew : ∀ r ∈ rows, r.id ≠ id) :
    ∃ row : Row, row.id = id ∧ row.key.ref = key ∧ row.started = i ∧ row.stopped = none ∧
      insertRow prepared id key started none l =
        .ok (row, { l with rows := some (rows ++ [row]) }) := by
  obtain ⟨row, hid, hkeyRef, hstarted, hstopped, hinsert⟩ :=
    insertRow_of_fits prepared id hrows hkey hstart hadmits
  refine ⟨row, hid, hkeyRef, hstarted, hstopped, ?_⟩
  have hany : rows.any (Row.isOpenFor key) = false := List.any_eq_false.mpr hfree
  have hids : rows.any (fun r => decide (r.id = id)) = false :=
    List.any_eq_false.mpr fun r hr => by simpa using hnew r hr
  rw [hinsert, hany, hids, Bool.and_false]
  rfl

/-- An ending that is not before the start of the row it ends is carried out. -/
theorem closeRow_of_ordered {stopped : Moment} {ended : Instant} (hrows : l.rows = some rows)
    (hstop : Instant.ofMoment stopped = .ok ended)
    (horder : ∀ r ∈ rows, r.isOpenWith id = true → r.started.micros ≤ ended.micros) :
    closeRow id stopped l = .ok (rows.countP (Row.isOpenWith id),
      { l with rows := some (rows.map (Row.closing id ended)) }) := by
  have hall : (rows.all fun r => !r.isOpenWith id || (r.stoppedAt ended).inOrder) = true := by
    rw [List.all_eq_true]
    intro r hr
    cases hopen : r.isOpenWith id with
    | false => rfl
    | true =>
      rw [Bool.not_true, Bool.false_or, Row.inOrder_iff]
      rintro _ ⟨⟩
      exact horder r hr hopen
  simp only [closeRow, bindTime_eq_ok_iff.mpr hstop, rowTable_eq_ok_iff.mpr hrows, require, Bind.bind,
    Except.bind, hall, if_true]
  rfl

/-- The rows of a user of 64 bits that reach into a window of storable bounds. -/
theorem overlappingRows_of_fits {user : Int} {start stop : Moment} {first last : Instant}
    (hrows : l.rows = some rows) (huser : Integer.fits64 user = true)
    (hstart : Instant.ofMoment start = .ok first) (hstop : Instant.ofMoment stop = .ok last) :
    overlappingRows prepared (some (.int user)) start stop l =
      .ok ((rows.filter fun r => r.ofUser (some (.int user)) && r.reaches first last).mergeSort
        fun a b => a.started.micros ≤ b.started.micros) := by
  have hbind : bindIdent (some (.int user)) = .ok (some (.int user)) := by
    simp only [bindIdent, bindInt_of_fits huser]
    rfl
  have hprepare : prepare prepared l.rowTable (bindIdent (some (.int user))) =
      .ok (rows, some (.int user)) :=
    prepare_eq_ok_iff.mpr ⟨rowTable_eq_ok_iff.mpr hrows, hbind⟩
  simp only [overlappingRows, bindTime_eq_ok_iff.mpr hstart, bindTime_eq_ok_iff.mpr hstop, hprepare]
  rfl

theorem findRow_eq_ok (hrows : l.rows = some rows) : findRow id l = .ok (rows.find? (·.id = id)) := by
  simp only [findRow, rowTable_eq_ok_iff.mpr hrows]
  rfl

end Ledger
end Worklog
