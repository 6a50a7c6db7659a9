import Worklog.Proofs.Database.Evaluate
import Worklog.Proofs.Database.History
import Worklog.Proofs.Database.Rejection
import Worklog.Proofs.Report.Unnamed

namespace Worklog

/-- Two checked values that are related, or one and the same error. -/
def Matches {ε α β : Type} (Q : α → β → Prop) : Except ε α → Except ε β → Prop
  | .ok a, .ok b => Q a b
  | .error e, .error e' => e = e'
  | _, _ => False

namespace Matches

variable {ε δ α β γ η : Type} {Q : α → β → Prop} {S : γ → η → Prop} {x : Except ε α} {y : Except ε β}

theorem refl (x : Except ε α) : Matches Eq x x := by cases x <;> rfl

theorem bind {f : α → Except ε γ} {g : β → Except ε η} (h : Matches Q x y)
    (hfg : ∀ a b, Q a b → Matches S (f a) (g b)) : Matches S (x >>= f) (y >>= g) := by
  cases x <;> cases y
  · exact h
  · cases h
  · cases h
  · exact hfg _ _ h

theorem mapError (h : Matches Q x y) (f : ε → δ) : Matches Q (x.mapError f) (y.mapError f) := by
  cases x <;> cases y
  · exact congrArg f h
  · cases h
  · cases h
  · exact h

theorem elim (h : Matches Q x y) :
    (∃ e, x = .error e ∧ y = .error e) ∨ ∃ a b, x = .ok a ∧ y = .ok b ∧ Q a b := by
  cases x <;> cases y
  · exact .inl ⟨_, rfl, congrArg _ (Eq.symm h)⟩
  · cases h
  · cases h
  · exact .inr ⟨_, _, rfl, rfl, h⟩

end Matches

/-- The key of a user and a task that are named by integers, as they should be. -/
def Key.ints (user task : Int) : Key := ⟨.int user, .int task⟩

namespace Row

variable {mine : Key → Bool} {rows rows' : List Row} {key : Key} {r : Row}

/-- The rows of some keys, without their ids. -/
def share (mine : Key → Bool) (rows : List Row) : List Row :=
  (rows.filter fun r => mine r.key).map unnamed

/-- The row with an end, if it is the open row of a key. -/
def endingFor (key : KeyRef) (ended : Instant) (r : Row) : Row :=
  if r.isOpenFor key then r.stoppedAt ended else r

theorem share_append (rows : List Row) (row : Row) :
    share mine (rows ++ [row]) =
      share mine rows ++ if mine row.key then [row.unnamed] else [] := by
  unfold share
  rw [List.filter_append, List.map_append]
  cases hmine : mine row.key <;> simp [hmine]

/-- What is asked of the rows of some keys, whatever their ids, is asked of their share. -/
theorem map_filter_eq_share {p : Row → Bool} (hp : ∀ r : Row, p r.unnamed = p r)
    (hmine : ∀ r, p r = true → mine r.key = true) (rows : List Row) :
    (rows.filter p).map unnamed = (share mine rows).filter p := by
  unfold share
  rw [List.filter_map, List.filter_filter]
  congr 1
  refine List.filter_congr fun r _ => ?_
  cases hpr : p r with
  | false => simp [hp, hpr]
  | true => simp [hp, hpr, hmine r hpr]

theorem any_eq_of_share {p : Row → Bool} (hp : ∀ r : Row, p r.unnamed = p r)
    (hmine : ∀ r, p r = true → mine r.key = true) (h : share mine rows = share mine rows') :
    rows.any p = rows'.any p := by
  have hcount (rows : List Row) : rows.any p = !(share mine rows).filter p == [] := by
    rw [← map_filter_eq_share hp hmine]
    cases hfilter : rows.filter p with
    | nil =>
      have hnone := List.filter_eq_nil_iff.mp hfilter
      simpa using hnone
    | cons r rest =>
      have hmem : r ∈ rows.filter p := by simp [hfilter]
      have hany : rows.any p = true :=
        List.any_eq_true.mpr ⟨r, (List.mem_filter.mp hmem).1, (List.mem_filter.mp hmem).2⟩
      rw [hany]
      rfl
  rw [hcount rows, hcount rows', h]

/-- The ending of the open row of a key by its id. -/
theorem map_closing_eq (hfine : Consistent rows) (hr : r ∈ rows) {key : KeyRef}
    (hopen : r.isOpenFor key = true) (ended : Instant) :
    rows.map (closing r.id ended) = rows.map (endingFor key ended) := by
  refine List.map_congr_left fun x hx => ?_
  have hsame : x.isOpenWith r.id = true ↔ x.isOpenFor key = true := by
    constructor
    · intro hwith
      obtain rfl := hfine.eq_of_isOpenWith hx hr hwith
      exact hopen
    · intro hfor
      obtain rfl := hfine.eq_of_isOpenFor hx hr hfor hopen
      exact isOpenWith_iff.mpr ⟨rfl, (isOpenFor_iff.mp hopen).2⟩
  simp only [closing, endingFor, hsame]

theorem share_endingFor (key : KeyRef) (ended : Instant) (rows : List Row) :
    share mine (rows.map (endingFor key ended)) = (share mine rows).map (endingFor key ended) := by
  unfold share
  have hkey : (fun r => mine r.key) ∘ endingFor key ended = fun r => mine r.key := by
    funext r
    simp only [Function.comp, endingFor]
    split <;> rfl
  have hunnamed : unnamed ∘ endingFor key ended = endingFor key ended ∘ unnamed := by
    funext r
    cases hopen : r.isOpenFor key
    · have hsame : r.unnamed.isOpenFor key = false := hopen
      simp [endingFor, hopen, hsame]
    · have hsame : r.unnamed.isOpenFor key = true := hopen
      simp only [Function.comp, endingFor, hopen, hsame, if_true]
      rfl
  rw [List.filter_map, hkey, List.map_map, List.map_map, hunnamed]

theorem share_endingFor_other (hmine : mine key = false) (ended : Instant) (rows : List Row) :
    share mine (rows.map (endingFor key.ref ended)) = share mine rows := by
  rw [share_endingFor]
  refine (List.map_congr_left fun r hr => ?_).trans (List.map_id _)
  obtain ⟨x, hx, rfl⟩ := List.mem_map.mp hr
  refine if_neg fun hopen => ?_
  have hkey : x.key = key := Key.ref_injective (isOpenFor_iff.mp hopen).1
  have hx' := (List.mem_filter.mp hx).2
  rw [hkey, hmine] at hx'
  cases hx'

end Row

namespace Ledger

/-- The tables are there, and the intervals are consistent under their index. -/
structure Whole (l : Ledger) (rows : List Row) : Prop where
  stored : l.rows = some rows
  openUnique : l.openUnique = true
  consistent : Consistent rows
  tasks : l.tasks ≠ none

/-- Two ledgers with the same tasks and, up to their ids, the same intervals of some keys. -/
structure Beside (mine : Key → Bool) (a b : Ledger) (rows rows' : List Row) : Prop where
  left : a.Whole rows
  right : b.Whole rows'
  tasks : b.tasks = a.tasks
  foreignKeys : b.foreignKeys = a.foreignKeys
  share : Row.share mine rows = Row.share mine rows'

variable {mine : Key → Bool} {a b l l' : Ledger} {rows rows' later : List Row} {key : Key}

/-- The tables are there and consistent after any use of the intervals. -/
theorem Whole.touched (h : l.Whole rows) (htouched : l.Touched l') (hlater : l'.rows = some later) :
    l'.Whole later := by
  obtain ⟨hunique, later', hlater', hfine, _⟩ := htouched.history h.openUnique h.stored h.consistent
  obtain rfl := Option.some.inj (hlater'.symm.trans hlater)
  exact ⟨hlater, hunique, hfine, htouched.frame.1 ▸ h.tasks⟩

theorem Beside.symm (h : Beside mine a b rows rows') : Beside mine b a rows' rows :=
  ⟨h.right, h.left, h.tasks.symm, h.foreignKeys.symm, h.share.symm⟩

theorem Beside.refl (mine : Key → Bool) (h : l.Whole rows) : Beside mine l l rows rows :=
  ⟨h, h, rfl, rfl, rfl⟩

/-- A ledger that is used for other keys stays beside the other one. -/
theorem Beside.touched (h : Beside mine a b rows rows') (htouched : a.Touched l)
    (hwhole : l.Whole later) (hshare : Row.share mine later = Row.share mine rows) :
    Beside mine l b later rows' where
  left := hwhole
  right := h.right
  tasks := h.tasks.trans htouched.frame.1.symm
  foreignKeys := h.foreignKeys.trans htouched.frame.2.symm
  share := hshare.trans h.share

/-- Both ledgers are used. -/
theorem Beside.both (h : Beside mine a b rows rows') (hleft : a.Touched l) (hright : b.Touched l')
    {later' : List Row} (hwhole : l.Whole later) (hwhole' : l'.Whole later')
    (hshare : Row.share mine later = Row.share mine later') : Beside mine l l' later later' where
  left := hwhole
  right := hwhole'
  tasks := by rw [hleft.frame.1, hright.frame.1, h.tasks]
  foreignKeys := by rw [hleft.frame.2, hright.frame.2, h.foreignKeys]
  share := hshare

theorem prepare_of_tables {α β : Type} {tables : Except Rejection α} {a : α} (h : tables = .ok a)
    (prepared : Bool) (values : Except Rejection β) :
    prepare prepared tables values = values.map (a, ·) := by
  subst h
  cases values <;> cases prepared <;> rfl

/-- A key of integers is taken over as it is, or not at all. -/
theorem bindKey_ints (user task : Int) :
    bindKey (Key.ints user task).ref = .ok (Key.ints user task).ref ∨
      bindKey (Key.ints user task).ref = .error .tooWide := by
  by_cases hfits : (Key.ints user task).ref.fits = true
  · exact .inl (bindKey_of_fits hfits)
  · exact .inr ((bindKey_tooWide_iff user task).mpr hfits)

theorem Whole.openRows_eq (h : l.Whole rows) (prepared : Bool) (key : KeyRef) :
    openRows prepared key l = (bindKey key).map fun key => rows.filter (Row.isOpenFor key) := by
  have htable := rowTable_eq_ok_iff.mpr h.stored
  unfold openRows
  rw [prepare_of_tables htable]
  cases bindKey key <;> rfl

/-- The open rows of a key are the same in both ledgers. -/
theorem Beside.openRows_matches (h : Beside mine a b rows rows') {user task : Int}
    (hmine : mine (.ints user task) = true) (p q : Bool) :
    Matches (fun x y => x.map Row.unnamed = y.map Row.unnamed)
      (openRows p (Key.ints user task).ref a) (openRows q (Key.ints user task).ref b) := by
  rw [h.left.openRows_eq, h.right.openRows_eq]
  obtain hbind | hbind := bindKey_ints user task
  · have hkeys (r : Row) (hopen : r.isOpenFor (Key.ints user task).ref = true) : mine r.key = true := by
      rw [Key.ref_injective (Row.isOpenFor_iff.mp hopen).1]
      exact hmine
    rw [hbind]
    show List.map _ _ = List.map _ _
    rw [Row.map_filter_eq_share (fun _ => rfl) hkeys, Row.map_filter_eq_share (fun _ => rfl) hkeys, h.share]
  · rw [hbind]
    rfl

/-- The rows of a user that reach into a window have the same share. -/
theorem Beside.overlappingRows_matches (h : Beside mine a b rows rows') {user : Int}
    (hmine : ∀ task, mine ⟨.int user, task⟩ = true) (start stop : Moment) (p q : Bool) :
    Matches (fun x y => x.map Row.unnamed = y.map Row.unnamed)
      (overlappingRows p (some (.int user)) start stop a)
      (overlappingRows q (some (.int user)) start stop b) := by
  have hleft := rowTable_eq_ok_iff.mpr h.left.stored
  have hright := rowTable_eq_ok_iff.mpr h.right.stored
  unfold overlappingRows
  refine (Matches.refl _).bind fun last _ hlast => ?_
  subst hlast
  refine (Matches.refl _).bind fun first _ hfirst => ?_
  subst hfirst
  rw [prepare_of_tables hleft, prepare_of_tables hright]
  cases hbind : bindIdent (some (.int user)) with
  | error x => rfl
  | ok bound =>
    obtain rfl : bound = some (.int user) := bindIdent_eq_ok hbind
    have hkeys (r : Row) (hr : (r.ofUser (some (.int user)) && r.reaches first last) = true) :
        mine r.key = true := by
      rw [Bool.and_eq_true, Row.ofUser, beq_iff_eq, Option.some.injEq] at hr
      rw [Row.key, ← hr.1]
      exact hmine r.task
    have hsorted (rows : List Row) : ((rows.filter fun r => r.ofUser (some (.int user)) &&
        r.reaches first last).mergeSort fun a b => a.started.micros ≤ b.started.micros).map Row.unnamed =
        ((Row.share mine rows).filter fun r => r.ofUser (some (.int user)) &&
        r.reaches first last).mergeSort fun a b => a.started.micros ≤ b.started.micros := by
      rw [← Row.map_filter_eq_share (fun _ => rfl) hkeys]
      exact List.map_mergeSort fun _ _ _ _ => rfl
    show List.map _ _ = List.map _ _
    rw [hsorted rows, hsorted rows', h.share]

theorem Whole.insertTables_eq (h : l.Whole rows) :
    l.insertTables = .ok (rows, if l.foreignKeys then l.tasks.getD [] else []) := by
  obtain ⟨tasks, htasks⟩ := Option.ne_none_iff_exists'.mp h.tasks
  simp only [insertTables, rowTable_eq_ok_iff.mpr h.stored, referenced, htasks]
  cases l.foreignKeys <;> rfl

/-- An insertion under new ids is carried out in both ledgers, or rejected in both for the same reason. -/
theorem Beside.insertRow_matches (h : Beside mine a b rows rows') {user task : Int}
    (hmine : mine (.ints user task) = true) {fresh fresh' : Uuid} (hnew : ∀ r ∈ rows, r.id ≠ fresh)
    (hnew' : ∀ r ∈ rows', r.id ≠ fresh') (started : Moment) (p q : Bool) :
    Matches (fun x y => x.1.unnamed = y.1.unnamed)
      (insertRow p fresh (Key.ints user task).ref started none a)
      (insertRow q fresh' (Key.ints user task).ref started none b) := by
  have hparents : (if b.foreignKeys then b.tasks.getD [] else []) =
      if a.foreignKeys then a.tasks.getD [] else [] := by rw [h.foreignKeys, h.tasks]
  unfold insertRow
  refine (Matches.refl _).bind fun i _ hi => ?_
  subst hi
  refine (Matches.refl _).bind fun ended _ hended => ?_
  subst hended
  rw [prepare_of_tables h.left.insertTables_eq, prepare_of_tables h.right.insertTables_eq, hparents]
  obtain hbind | hbind := bindKey_ints user task
  · rw [hbind]
    have hkeys (r : Row) (hopen : r.isOpenFor (Key.ints user task).ref = true) :
        mine r.key = true := by
      rw [Key.ref_injective (Row.isOpenFor_iff.mp hopen).1]
      exact hmine
    have hopen := Row.any_eq_of_share (p := Row.isOpenFor (Key.ints user task).ref)
      (fun _ => rfl) hkeys h.share
    have hown (rows : List Row) (fresh : Uuid) (hnew : ∀ r ∈ rows, r.id ≠ fresh) :
        rows.any (fun r => decide (r.id = fresh)) = false :=
      List.any_eq_false.mpr fun r hr => by simpa using hnew r hr
    refine Matches.bind (Q := fun x y => x = _ ∧ y = _) ⟨rfl, rfl⟩ ?_
    rintro _ _ ⟨rfl, rfl⟩
    -- From here on the two insertions check the same things in the same order.
    refine Matches.bind (Q := Eq) (Matches.refl (required "user_id" _)) fun u _ hu => ?_
    subst hu
    refine Matches.bind (Q := Eq) (Matches.refl (required "task_id" _)) fun t _ ht => ?_
    subst ht
    refine Matches.bind (Q := Eq) (Matches.refl (require _ .stopAfterStart)) fun _ _ _ => ?_
    refine Matches.bind (Q := Eq) ?_ fun _ _ _ => ?_
    · rw [hopen, h.left.openUnique, h.right.openUnique]
      exact Matches.refl (require _ .oneOpen)
    refine Matches.bind (Q := Eq) ?_ fun _ _ _ => ?_
    · rw [hown rows fresh hnew, hown rows' fresh' hnew']
      exact Matches.refl (require _ .ownId)
    refine Matches.bind (Q := Eq) ?_ fun _ _ _ => rfl
    rw [h.foreignKeys]
    exact Matches.refl (require _ .taskExists)
  · rw [hbind]
    rfl

/-- The row of a key of integers is stored under it. -/
theorem key_of_insertRow_ints {p : Bool} {fresh : Uuid} {user task : Int} {started : Moment} {row : Row}
    (h : insertRow p fresh (Key.ints user task).ref started none l = .ok (row, l')) :
    row.key = .ints user task :=
  Key.ref_injective (ref_of_insertRow h)

/-- The ending of an open row depends on nothing but its start. -/
theorem Whole.closeRow_eq (h : l.Whole rows) {r : Row} (hr : r ∈ rows) (hopen : r.isOpenFor key.ref = true)
    (stopped : Moment) :
    closeRow r.id stopped l = do
      let ended ← bindTime stopped
      require (r.stoppedAt ended).inOrder .stopAfterStart
      return (rows.countP (Row.isOpenWith r.id),
        { l with rows := some (rows.map (Row.endingFor key.ref ended)) }) := by
  have hwith : r.isOpenWith r.id = true := Row.isOpenWith_iff.mpr ⟨rfl, (Row.isOpenFor_iff.mp hopen).2⟩
  have hall (ended : Instant) : (rows.all fun x => !x.isOpenWith r.id || (x.stoppedAt ended).inOrder) =
      (r.stoppedAt ended).inOrder := by
    cases horder : (r.stoppedAt ended).inOrder with
    | false =>
      rw [List.all_eq_false]
      exact ⟨r, hr, by simp [hwith, horder]⟩
    | true =>
      rw [List.all_eq_true]
      intro x hx
      cases hxopen : x.isOpenWith r.id with
      | false => rfl
      | true =>
        obtain rfl := h.consistent.eq_of_isOpenWith hx hr hxopen
        exact horder
  unfold closeRow
  rw [rowTable_eq_ok_iff.mpr h.stored]
  simp only [← hall, ← Row.map_closing_eq h.consistent hr hopen]
  rfl

end Ledger

namespace Database

variable {mine : Key → Bool} {a b : Database} {rows rows' : List Row} {user task : Int}

theorem reply_matches {α β : Type} {Q : α → β → Prop} {x : Except Rejection α} {y : Except Rejection β}
    (hhit : ∀ k verb, b.hit k verb = a.hit k verb) (k : Nat) (verb : Verb) (h : Matches Q x y) :
    Matches Q (a.reply k verb x) (b.reply k verb y) := by
  unfold reply
  rw [hhit]
  exact (Matches.refl _).bind fun _ _ _ => h.mapError _

/-- What is read of a key are its open rows. -/
theorem tryOpen_eq_ok {db : Database} (h : db.ledger.Whole rows) {opened : List Row}
    (hopen : db.tryOpen (Key.ints user task).ref = .ok opened) :
    opened = rows.filter (Row.isOpenFor (Key.ints user task).ref) := by
  simp only [tryOpen, reply, except_bind_eq_ok_iff, h.openRows_eq] at hopen
  obtain ⟨_, _, hopen⟩ := hopen
  obtain hbind | hbind := Ledger.bindKey_ints user task
  · rw [hbind] at hopen
    cases hopen
    rfl
  · rw [hbind] at hopen
    cases hopen

theorem tryOpen_matches (h : a.ledger.Beside mine b.ledger rows rows')
    (hhit : ∀ k verb, b.hit k verb = a.hit k verb) (hmine : mine (.ints user task) = true) :
    Matches (fun x y => x.map Row.unnamed = y.map Row.unnamed)
      (a.tryOpen (Key.ints user task).ref) (b.tryOpen (Key.ints user task).ref) :=
  reply_matches hhit 0 .execute (h.openRows_matches hmine _ _)

theorem tryOverlapping_matches (h : a.ledger.Beside mine b.ledger rows rows')
    (hhit : ∀ k verb, b.hit k verb = a.hit k verb) (hmine : ∀ task, mine ⟨.int user, task⟩ = true)
    (start stop : Moment) :
    Matches (fun x y => x.map Row.unnamed = y.map Row.unnamed)
      (a.tryOverlapping (some (.int user)) start stop) (b.tryOverlapping (some (.int user)) start stop) :=
  reply_matches hhit 0 .execute (h.overlappingRows_matches hmine start stop _ _)

theorem insertRow_of_tryInsert {db : Database} {fresh : Uuid} {key : KeyRef} {started : Moment}
    {stored : Row × Ledger} (h : db.tryInsert fresh key started = .ok stored) :
    Ledger.insertRow (db.prepared.contains .insertRow) fresh key started none db.ledger = .ok stored := by
  simp only [tryInsert, reply, except_bind_eq_ok_iff] at h
  obtain ⟨stored, ⟨_, _, hinsert⟩, _, _, hstored⟩ := h
  cases hstored
  exact except_mapError_eq_ok_iff.mp hinsert

/-- An insertion that has come to its end has added a row of its key. -/
theorem tryInsert_eq_ok {db : Database} (h : db.ledger.Whole rows) {fresh : Uuid} {started : Moment} {row : Row}
    {l : Ledger} (hinsert : db.tryInsert fresh (Key.ints user task).ref started = .ok (row, l)) :
    row.key = .ints user task ∧ db.ledger.Touched l ∧ l.Whole (rows ++ [row]) := by
  have hdone := insertRow_of_tryInsert hinsert
  obtain ⟨_, hold, hledger, _⟩ := Ledger.insertRow_eq_ok hdone
  obtain rfl := Option.some.inj (hold.symm.trans h.stored)
  have htouched : db.ledger.Touched l := .inserted hdone
  exact ⟨Ledger.key_of_insertRow_ints hdone, htouched, h.touched htouched (congrArg Ledger.rows hledger)⟩

/-- An insertion in both databases, as far as it comes. -/
theorem tryInsert_matches (h : a.ledger.Beside mine b.ledger rows rows')
    (hhit : ∀ k verb, b.hit k verb = a.hit k verb) (hmine : mine (.ints user task) = true)
    {fresh fresh' : Uuid} (hnew : ∀ r ∈ rows, r.id ≠ fresh) (hnew' : ∀ r ∈ rows', r.id ≠ fresh')
    (started : Moment) :
    Matches (fun x y => x.1.unnamed = y.1.unnamed)
      (a.tryInsert fresh (Key.ints user task).ref started)
      (b.tryInsert fresh' (Key.ints user task).ref started) := by
  refine (reply_matches hhit 0 .flush (h.insertRow_matches hmine hnew hnew' started _ _)).bind
    fun x y hsame => ?_
  rw [hhit]
  exact (Matches.refl _).bind fun _ _ _ => hsame

/-- An ending that has come to its end has found no open row, or has ended it. -/
theorem tryClose_eq_ok {db : Database} {id : Uuid} {stopped : Moment} {row? : Option Row} {l : Ledger}
    (h : db.tryClose id stopped = .ok (row?, l)) :
    l = db.ledger ∨ ∃ n, Ledger.closeRow id stopped db.ledger = .ok (n, l) := by
  simp only [tryClose, reply, except_bind_eq_ok_iff] at h
  obtain ⟨⟨n, later⟩, ⟨_, _, hclose⟩, h⟩ := h
  dsimp only at h
  split at h
  · cases h
    exact .inl rfl
  · simp only [except_bind_eq_ok_iff] at h
    obtain ⟨_, _, _, _, h⟩ := h
    cases h
    exact .inr ⟨n, except_mapError_eq_ok_iff.mp hclose⟩

theorem touched_of_tryClose {db : Database} {id : Uuid} {stopped : Moment} {row? : Option Row} {l : Ledger}
    (h : db.tryClose id stopped = .ok (row?, l)) : db.ledger.Touched l := by
  obtain rfl | ⟨_, hclose⟩ := tryClose_eq_ok h
  · exact .same _
  · exact .ended hclose

/-- The ending of an open row, as far as it comes. -/
theorem tryClose_eq {db : Database} (h : db.ledger.Whole rows) {r : Row} (hr : r ∈ rows) {key : Key}
    (hopen : r.isOpenFor key.ref = true) (stopped : Moment) :
    db.tryClose r.id stopped = do
      let ended ← db.reply 0 .execute do
        let ended ← Ledger.bindTime stopped
        Ledger.require (r.stoppedAt ended).inOrder .stopAfterStart
        return ended
      db.hit 1 .load
      db.hit 2 .commit
      return (some (r.stoppedAt ended),
        { db.ledger with rows := some (rows.map (Row.endingFor key.ref ended)) }) := by
  have hcount : rows.countP (Row.isOpenWith r.id) ≠ 0 := by
    intro hnone
    have hnot := List.countP_eq_zero.mp hnone r hr
    exact hnot (Row.isOpenWith_iff.mpr ⟨rfl, (Row.isOpenFor_iff.mp hopen).2⟩)
  have hfind (ended : Instant) : Ledger.findRow r.id
      { db.ledger with rows := some (rows.map (Row.endingFor key.ref ended)) } =
        .ok (some (r.stoppedAt ended)) := by
    rw [Ledger.findRow_eq_ok rfl, ← Row.map_closing_eq h.consistent hr hopen,
      h.consistent.find_closing hr (Row.isOpenFor_iff.mp hopen).2]
  unfold tryClose reply
  rw [h.closeRow_eq hr hopen]
  cases db.hit 0 .execute with
  | error e => rfl
  | ok _ =>
    cases Ledger.bindTime stopped with
    | error x => rfl
    | ok ended =>
      simp only [Bind.bind, Except.bind, pure, Except.pure]
      cases Ledger.require (r.stoppedAt ended).inOrder .stopAfterStart with
      | error x => rfl
      | ok _ =>
        have hok {α : Type} (a : α) : (Except.ok a).mapError Rejection.raised = .ok a := rfl
        simp only [hok, if_neg hcount, hfind]
        cases db.hit 1 .load <;> rfl

theorem rows_of_tryClose {db : Database} (h : db.ledger.Whole rows) {r : Row} (hr : r ∈ rows) {key : Key}
    (hopen : r.isOpenFor key.ref = true) {stopped : Moment} {ended : Option Row × Ledger}
    (hclose : db.tryClose r.id stopped = .ok ended) :
    ∃ e, ended.2.rows = some (rows.map (Row.endingFor key.ref e)) := by
  rw [tryClose_eq h hr hopen] at hclose
  simp only [except_bind_eq_ok_iff] at hclose
  obtain ⟨e, _, _, _, _, _, hended⟩ := hclose
  cases hended
  exact ⟨e, rfl⟩

/-- The ending of the open row of a key in both databases, as far as it comes. -/
theorem tryClose_matches (h : a.ledger.Beside mine b.ledger rows rows')
    (hhit : ∀ k verb, b.hit k verb = a.hit k verb) {r r' : Row} (hr : r ∈ rows) (hr' : r' ∈ rows')
    {key : Key} (hopen : r.isOpenFor key.ref = true) (hsame : r.unnamed = r'.unnamed) (stopped : Moment) :
    Matches (fun x y => x.1.map Row.unnamed = y.1.map Row.unnamed ∧ ∃ ended,
        x.2.rows = some (rows.map (Row.endingFor key.ref ended)) ∧
        y.2.rows = some (rows'.map (Row.endingFor key.ref ended)))
      (a.tryClose r.id stopped) (b.tryClose r'.id stopped) := by
  have hopen' : r'.isOpenFor key.ref = true := by
    have hfor : r'.unnamed.isOpenFor key.ref = true := hsame ▸ hopen
    exact hfor
  rw [tryClose_eq h.left hr hopen, tryClose_eq h.right hr' hopen']
  refine Matches.bind (Q := Eq) (reply_matches hhit 0 .execute ?_) fun ended _ hended => ?_
  · have horder (ended : Instant) : (r'.stoppedAt ended).inOrder = (r.stoppedAt ended).inOrder := by
      show (r'.unnamed.stoppedAt ended).inOrder = (r.unnamed.stoppedAt ended).inOrder
      rw [hsame]
    simp only [horder]
    exact Matches.refl _
  subst hended
  rw [hhit, hhit]
  refine (Matches.refl _).bind fun _ _ _ => (Matches.refl _).bind fun _ _ _ => ⟨?_, ended, rfl, rfl⟩
  exact congrArg some (congrArg (Row.stoppedAt ended) hsame)

end Database
end Worklog
