import Worklog.Proofs.Database.Ledger

namespace Worklog

namespace Row

/-- A row as it may be found later: the same, or open before and ended since. -/
def Ages (r r' : Row) : Prop := r' = r ∨ r.stopped = none ∧ ∃ ended, r' = r.stoppedAt ended

theorem Ages.refl (r : Row) : r.Ages r := .inl rfl

theorem Ages.trans {a b c : Row} (hab : a.Ages b) (hbc : b.Ages c) : a.Ages c := by
  obtain rfl | ⟨hopen, ended, rfl⟩ := hab
  · exact hbc
  · obtain rfl | ⟨hlater, _⟩ := hbc
    · exact .inr ⟨hopen, ended, rfl⟩
    · cases hlater

theorem ages_closing (id : Uuid) (ended : Instant) (r : Row) : r.Ages (r.closing id ended) := by
  by_cases hopen : r.isOpenWith id = true
  · rw [closing, if_pos hopen]
    exact .inr ⟨(isOpenWith_iff.mp hopen).2, ended, rfl⟩
  · rw [closing_of_not_open hopen]
    exact .refl r

/-- The times of a row have passed. -/
structure Past (r : Row) (now : Moment) : Prop where
  started : (r.started.micros : Int) ≤ now.instant
  stopped : ∀ ended, r.stopped = some ended → (ended.micros : Int) ≤ now.instant

theorem Past.mono {r : Row} {now later : Moment} (h : r.Past now)
    (hle : now.instant ≤ later.instant) : r.Past later where
  started := Int.le_trans h.started hle
  stopped := fun ended hended => Int.le_trans (h.stopped ended hended) hle

theorem past_of_open {r : Row} {now : Moment} (hstart : (r.started.micros : Int) ≤ now.instant)
    (hopen : r.stopped = none) : r.Past now := by
  refine ⟨hstart, fun ended hended => ?_⟩
  rw [hopen] at hended
  cases hended

theorem Past.closing {r : Row} {now : Moment} (h : r.Past now) (id : Uuid) {ended : Instant}
    (hle : (ended.micros : Int) ≤ now.instant) : (r.closing id ended).Past now := by
  by_cases hopen : r.isOpenWith id = true
  · refine ⟨by rw [closing_started]; exact h.started, fun e he => ?_⟩
    rw [closing_of_open hopen] at he
    cases he
    exact hle
  · rw [closing_of_not_open hopen]
    exact h

end Row

/-- Every row is still in its place. -/
def Grows (rows later : List Row) : Prop :=
  ∀ (n : Nat) (r : Row), rows[n]? = some r → ∃ r', later[n]? = some r' ∧ r.Ages r'

theorem Grows.refl (rows : List Row) : Grows rows rows := fun _ r hr => ⟨r, hr, .refl r⟩

theorem Grows.trans {a b c : List Row} (hab : Grows a b) (hbc : Grows b c) : Grows a c := by
  intro n r hr
  obtain ⟨r', hr', hages⟩ := hab n r hr
  obtain ⟨r'', hr'', hages'⟩ := hbc n r' hr'
  exact ⟨r'', hr'', hages.trans hages'⟩

theorem grows_append (rows : List Row) (row : Row) : Grows rows (rows ++ [row]) := by
  intro n r hr
  obtain ⟨hlt, _⟩ := List.getElem?_eq_some_iff.mp hr
  exact ⟨r, by rw [List.getElem?_append_left hlt, hr], .refl r⟩

theorem grows_closing (id : Uuid) (ended : Instant) (rows : List Row) :
    Grows rows (rows.map (Row.closing id ended)) := by
  intro n r hr
  exact ⟨r.closing id ended, by rw [List.getElem?_map, hr, Option.map_some], r.ages_closing id ended⟩

/-- What the constraints promise of a table of intervals. -/
structure Consistent (rows : List Row) : Prop where
  own_ids : rows.Pairwise fun a b => a.id ≠ b.id
  one_open : rows.Pairwise fun a b => a.key = b.key → ¬ (a.isOpen = true ∧ b.isOpen = true)
  in_order : ∀ r ∈ rows, ∀ ended, r.stopped = some ended → r.started.micros ≤ ended.micros

namespace Consistent

variable {rows : List Row}

theorem nil : Consistent [] := ⟨.nil, .nil, by simp⟩

/-- Rows with one id are one row. -/
theorem eq_of_id (h : Consistent rows) {a b : Row} (ha : a ∈ rows) (hb : b ∈ rows)
    (hid : a.id = b.id) : a = b := by
  have hforth : rows.Pairwise fun a b => a.id = b.id → a = b :=
    h.own_ids.imp fun hne hid => absurd hid hne
  have hback : rows.Pairwise (flip fun a b => a.id = b.id → a = b) :=
    h.own_ids.imp fun hne hid => absurd hid.symm hne
  exact hforth.forall_of_forall_of_flip (fun _ _ _ => rfl) hback ha hb hid

/-- Open rows of one key are one row. -/
theorem eq_of_open (h : Consistent rows) {a b : Row} (ha : a ∈ rows) (hb : b ∈ rows)
    (hkey : a.key = b.key) (haOpen : a.isOpen = true) (hbOpen : b.isOpen = true) : a = b := by
  have hforth : rows.Pairwise fun a b => a.key = b.key → a.isOpen = true → b.isOpen = true → a = b :=
    h.one_open.imp fun hnot hkey haOpen hbOpen => absurd ⟨haOpen, hbOpen⟩ (hnot hkey)
  have hback : rows.Pairwise
      (flip fun a b => a.key = b.key → a.isOpen = true → b.isOpen = true → a = b) :=
    h.one_open.imp fun hnot hkey hbOpen haOpen => absurd ⟨haOpen, hbOpen⟩ (hnot hkey.symm)
  exact hforth.forall_of_forall_of_flip (fun _ _ _ _ _ => rfl) hback ha hb hkey haOpen hbOpen

theorem eq_of_isOpenFor (h : Consistent rows) {a b : Row} (ha : a ∈ rows) (hb : b ∈ rows)
    {key : KeyRef} (haFor : a.isOpenFor key = true) (hbFor : b.isOpenFor key = true) : a = b := by
  obtain ⟨haKey, haOpen⟩ := Row.isOpenFor_iff.mp haFor
  obtain ⟨hbKey, hbOpen⟩ := Row.isOpenFor_iff.mp hbFor
  exact h.eq_of_open ha hb (Key.ref_injective (haKey.trans hbKey.symm)) (Row.isOpen_iff.mpr haOpen)
    (Row.isOpen_iff.mpr hbOpen)

/-- The open row with the id of a row is that row. -/
theorem eq_of_isOpenWith (h : Consistent rows) {a b : Row} (ha : a ∈ rows) (hb : b ∈ rows)
    (hopen : a.isOpenWith b.id = true) : a = b :=
  h.eq_of_id ha hb (Row.isOpenWith_iff.mp hopen).1

/-- A key has no open row or a single one. -/
theorem filter_open (h : Consistent rows) (key : KeyRef) :
    rows.filter (Row.isOpenFor key) = [] ∨ ∃ r ∈ rows, r.isOpenFor key = true ∧
      rows.filter (Row.isOpenFor key) = [r] := by
  have hpair := h.one_open.filter (Row.isOpenFor key)
  have hall : ∀ r ∈ rows.filter (Row.isOpenFor key), r ∈ rows ∧ r.isOpenFor key = true :=
    fun r hr => List.mem_filter.mp hr
  generalize rows.filter (Row.isOpenFor key) = opened at hpair hall ⊢
  match opened with
  | [] => exact .inl rfl
  | [r] => exact .inr ⟨r, (hall r (by simp)).1, (hall r (by simp)).2, rfl⟩
  | a :: b :: rest =>
    have hne := List.rel_of_pairwise_cons hpair (List.mem_cons_self (l := rest))
    obtain ⟨ha, haOpen⟩ := Row.isOpenFor_iff.mp (hall a (by simp)).2
    obtain ⟨hb, hbOpen⟩ := Row.isOpenFor_iff.mp (hall b (by simp)).2
    exact absurd ⟨Row.isOpen_iff.mpr haOpen, Row.isOpen_iff.mpr hbOpen⟩
      (hne (Key.ref_injective (ha.trans hb.symm)))

/-- A new row keeps a table consistent if its id is new, it is in order and no row of its key is open
    beside it. -/
theorem append (h : Consistent rows) {row : Row} (hid : ∀ r ∈ rows, r.id ≠ row.id)
    (hopen : row.isOpen = true → ∀ r ∈ rows, ¬ r.isOpenFor row.key.ref = true)
    (horder : row.inOrder = true) : Consistent (rows ++ [row]) where
  own_ids := by
    rw [List.pairwise_append]
    exact ⟨h.own_ids, List.pairwise_singleton .., fun a ha b hb => List.mem_singleton.mp hb ▸ hid a ha⟩
  one_open := by
    rw [List.pairwise_append]
    refine ⟨h.one_open, List.pairwise_singleton .., ?_⟩
    intro a ha b hb hkey hboth
    obtain rfl := List.mem_singleton.mp hb
    refine hopen hboth.2 a ha (Row.isOpenFor_iff.mpr ⟨?_, Row.isOpen_iff.mp hboth.1⟩)
    rw [hkey]
  in_order := by
    intro r hr
    obtain hr | hr := List.mem_append.mp hr
    · exact h.in_order r hr
    · obtain rfl := List.mem_singleton.mp hr
      exact Row.inOrder_iff.mp horder

/-- An end that is not before the start of its row keeps a table consistent. -/
theorem closing (h : Consistent rows) {id : Uuid} {ended : Instant}
    (horder : ∀ r ∈ rows, r.isOpenWith id = true → r.started.micros ≤ ended.micros) :
    Consistent (rows.map (Row.closing id ended)) where
  own_ids := by
    rw [List.pairwise_map]
    simpa using h.own_ids
  one_open := by
    have hstill : ∀ r : Row, (r.closing id ended).isOpen = true → r.isOpen = true := by
      intro r hopen
      by_cases hid : r.isOpenWith id = true
      · rw [Row.isOpen_iff, Row.closing_of_open hid] at hopen
        cases hopen
      · rwa [Row.closing_of_not_open hid] at hopen
    rw [List.pairwise_map]
    refine h.one_open.imp fun {a b} hab hkey hboth => ?_
    rw [Row.closing_key, Row.closing_key] at hkey
    exact hab hkey ⟨hstill a hboth.1, hstill b hboth.2⟩
  in_order := by
    intro r' hr' e he
    obtain ⟨r, hr, rfl⟩ := List.mem_map.mp hr'
    by_cases hid : r.isOpenWith id = true
    · rw [Row.closing_of_open hid] at he
      cases he
      rw [Row.closing_started]
      exact horder r hr hid
    · rw [Row.closing_of_not_open hid] at he ⊢
      exact h.in_order r hr e he

/-- When the open row of a key has been ended, no row of the key is open. -/
theorem free_of_closing (h : Consistent rows) {r : Row} (hr : r ∈ rows) {key : KeyRef}
    (hfor : r.isOpenFor key = true) (ended : Instant) :
    ∀ x ∈ rows.map (Row.closing r.id ended), ¬ x.isOpenFor key = true := by
  intro x' hx' hxFor
  obtain ⟨x, hx, rfl⟩ := List.mem_map.mp hx'
  by_cases hxOpen : x.isOpenWith r.id = true
  · have hxStopped := (Row.isOpenFor_iff.mp hxFor).2
    rw [Row.closing_of_open hxOpen] at hxStopped
    cases hxStopped
  · rw [Row.closing_of_not_open hxOpen] at hxFor
    obtain rfl := h.eq_of_isOpenFor hx hr hxFor hfor
    exact hxOpen (Row.isOpenWith_iff.mpr ⟨rfl, (Row.isOpenFor_iff.mp hfor).2⟩)

/-- Of the rows of a consistent table an ending changes a single one. -/
theorem map_closing {rows before after : List Row} {r : Row} (h : Consistent rows)
    (hsplit : rows = before ++ r :: after) (ended : Instant) :
    rows.map (Row.closing r.id ended) = before ++ r.closing r.id ended :: after := by
  have hids := h.own_ids
  rw [hsplit, List.pairwise_append, List.pairwise_cons] at hids
  obtain ⟨_, ⟨hafter, _⟩, hbefore⟩ := hids
  have hother : ∀ xs : List Row, (∀ x ∈ xs, x.id ≠ r.id) → xs.map (Row.closing r.id ended) = xs := by
    intro xs hxs
    have hsame : ∀ x ∈ xs, x.closing r.id ended = x := fun x hx =>
      Row.closing_of_not_open (fun hopen => hxs x hx (Row.isOpenWith_iff.mp hopen).1) ended
    exact (List.map_congr_left hsame).trans (List.map_id' xs)
  rw [hsplit, List.map_append, List.map_cons,
    hother before fun x hx => hbefore x hx r List.mem_cons_self,
    hother after fun x hx => (hafter x hx).symm]

/-- The row that has been ended is found under its id. -/
theorem find_closing (h : Consistent rows) {r : Row} (hr : r ∈ rows) (hopen : r.stopped = none)
    (ended : Instant) :
    (rows.map (Row.closing r.id ended)).find? (fun x => decide (x.id = r.id)) =
      some (r.stoppedAt ended) := by
  have hclosing : r.closing r.id ended = r.stoppedAt ended := if_pos (Row.isOpenWith_iff.mpr ⟨rfl, hopen⟩)
  have hmem : r.stoppedAt ended ∈ rows.map (Row.closing r.id ended) :=
    List.mem_map.mpr ⟨r, hr, hclosing⟩
  cases hsearch : (rows.map (Row.closing r.id ended)).find? (fun x => decide (x.id = r.id)) with
  | none =>
    have hnone := List.find?_eq_none.mp hsearch _ hmem
    simp [Row.stoppedAt] at hnone
  | some x =>
    have hid : x.id = r.id := by simpa using List.find?_some hsearch
    obtain ⟨y, hy, rfl⟩ := List.mem_map.mp (List.mem_of_find?_eq_some hsearch)
    rw [Row.closing_id] at hid
    obtain rfl := h.eq_of_id hy hr hid
    rw [hclosing]

end Consistent

/-- Of two rows of a key the first has ended when the second starts. -/
def Successive (rows : List Row) : Prop :=
  rows.Pairwise fun x y => x.key = y.key →
    ∃ ended, x.stopped = some ended ∧ ended.micros ≤ y.started.micros

namespace Successive

variable {rows : List Row}

/-- A row that starts now comes after all others of its key if none of them is open. -/
theorem append (h : Successive rows) {now : Moment} {row : Row} (hpast : ∀ r ∈ rows, r.Past now)
    (hstarted : (row.started.micros : Int) = now.instant)
    (hfree : ∀ r ∈ rows, ¬ r.isOpenFor row.key.ref = true) : Successive (rows ++ [row]) := by
  rw [Successive, List.pairwise_append]
  refine ⟨h, List.pairwise_singleton .., fun x hx y hy hsame => ?_⟩
  obtain rfl := List.mem_singleton.mp hy
  cases hstopped : x.stopped with
  | none => exact absurd (Row.isOpenFor_iff.mpr ⟨congrArg Key.ref hsame, hstopped⟩) (hfree x hx)
  | some ended =>
    have hended := (hpast x hx).stopped ended hstopped
    exact ⟨ended, rfl, by omega⟩

theorem closing (h : Successive rows) (id : Uuid) (ended : Instant) :
    Successive (rows.map (Row.closing id ended)) := by
  rw [Successive, List.pairwise_map]
  refine h.imp fun {x y} hxy hsame => ?_
  rw [Row.closing_key, Row.closing_key] at hsame
  obtain ⟨e, he, hle⟩ := hxy hsame
  rw [Row.closing_of_closed he, Row.closing_started]
  exact ⟨e, he, hle⟩

end Successive

/-- What a use of the intervals makes of a ledger: nothing, one more row, or an end. -/
inductive Ledger.Touched : Ledger → Ledger → Prop where
  | same (l : Ledger) : Touched l l
  | inserted {l l' : Ledger} {prepared : Bool} {id : Uuid} {key : KeyRef} {started : Moment}
      {row : Row} (h : Ledger.insertRow prepared id key started none l = .ok (row, l')) : Touched l l'
  | ended {l l' : Ledger} {id : Uuid} {stopped : Moment} {n : Nat}
      (h : Ledger.closeRow id stopped l = .ok (n, l')) : Touched l l'

/-- No use of the intervals touches the tasks. -/
theorem Ledger.Touched.frame {l l' : Ledger} (h : l.Touched l') :
    l'.tasks = l.tasks ∧ l'.foreignKeys = l.foreignKeys := by
  cases h with
  | same => exact ⟨rfl, rfl⟩
  | inserted h =>
    obtain ⟨_, _, rfl, _⟩ := insertRow_eq_ok h
    exact ⟨rfl, rfl⟩
  | ended h =>
    obtain ⟨_, _, _, _, _, _, rfl⟩ := closeRow_eq_ok h
    exact ⟨rfl, rfl⟩

/-- A consistent table stays consistent, with all its rows, whatever use is made of it. -/
theorem Ledger.Touched.history {l l' : Ledger} (h : l.Touched l') (hunique : l.openUnique = true)
    {rows : List Row} (hrows : l.rows = some rows) (hfine : Consistent rows) :
    l'.openUnique = true ∧ ∃ later, l'.rows = some later ∧ Consistent later ∧ Grows rows later := by
  cases h with
  | same => exact ⟨hunique, rows, hrows, hfine, .refl rows⟩
  | @inserted _ _ _ _ _ row h =>
    obtain ⟨old, hold, rfl, rfl, _, hstopped, horder, hfree, hid⟩ := Ledger.insertRow_eq_ok h
    obtain rfl := Option.some.inj (hold.symm.trans hrows)
    exact ⟨hunique, _, rfl, hfine.append hid (hfree hunique) horder, grows_append _ row⟩
  | @ended _ id _ _ h =>
    obtain ⟨old, ended, hold, _, horder, _, rfl⟩ := Ledger.closeRow_eq_ok h
    obtain rfl := Option.some.inj (hold.symm.trans hrows)
    exact ⟨hunique, _, rfl, hfine.closing horder, grows_closing id ended _⟩

end Worklog
