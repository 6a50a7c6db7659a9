import Mathlib.Algebra.Field.Rat
import Mathlib.Algebra.Order.Field.Basic
import Mathlib.Algebra.Order.Ring.Rat
import Mathlib.Order.CountableDenseLinearOrder
import Worklog.Proofs.Schedule.Steady

namespace Worklog

/-- The same point in time in universal time. A moment whose universal time is out of the calendar stays
    as it is. -/
def Moment.inUtc (m : Moment) : Moment :=
  match m.toUtc with
  | .ok u => u
  | .error _ => m

theorem Moment.inUtc_of_ofMoment {m : Moment} {i : Instant} (h : Instant.ofMoment m = .ok i) :
    m.inUtc = i.toMoment := by
  rw [inUtc, Instant.toUtc_of_ofMoment h]

/-- For each key the interval that it is active in, if it is active. -/
abbrev Machine := KeyRef → Option Interval

namespace Machine

/-- All keys are inactive. -/
def idle : Machine := fun _ => none

/-- The interval that a start opens. -/
def opened (fresh : Uuid) (key : KeyRef) (now : Moment) : Interval :=
  ⟨fresh, key.user.getD .absent, key.task.getD .absent, now, none⟩

/-- The interval with an end, in universal time. -/
def ended (i : Interval) (now : Moment) : Interval :=
  { i with started := i.started.inUtc, stopped := some now.inUtc }

/-- A start succeeds on an inactive key. A stop succeeds on an active key and answers the interval that
    the last start opened. -/
def answer (m : Machine) (now : Moment) : Session.Request → Except Fault Interval
  | .start fresh key =>
    match m key with
    | none => .ok (opened fresh key now)
    | some _ => .error (Session.alreadyStarted key)
  | .stop key =>
    match m key with
    | some i => .ok (ended i now)
    | none => .error (Session.notStarted key)

/-- The state after a request. -/
def next (m : Machine) (now : Moment) : Session.Request → Machine
  | .start fresh key =>
    if m key = none then Function.update m key (some (opened fresh key now)) else m
  | .stop key => Function.update m key none

/-- The state after one call after the other. -/
def after (m : Machine) (calls : List (Finished Session.Request Interval)) : Machine :=
  calls.foldl (fun m f => m.next f.now f.request) m

/-- The machine gives every call the answer that it had. -/
def Explains : Machine → List (Finished Session.Request Interval) → Prop
  | _, [] => True
  | m, f :: rest => f.answer = m.answer f.now f.request ∧ (m.next f.now f.request).Explains rest

variable {m : Machine} {key : KeyRef} {rows : List Row}

theorem after_append (m : Machine) (xs ys : List (Finished Session.Request Interval)) :
    m.after (xs ++ ys) = (m.after xs).after ys := List.foldl_append

theorem explains_append (m : Machine) (xs ys : List (Finished Session.Request Interval)) :
    m.Explains (xs ++ ys) ↔ m.Explains xs ∧ (m.after xs).Explains ys := by
  induction xs generalizing m with
  | nil => simp [Explains, after]
  | cons f xs ih =>
    rw [List.cons_append, Explains, Explains, ih, and_assoc]
    rfl

theorem next_stop_of_inactive (h : m key = none) (now : Moment) : m.next now (.stop key) = m := by
  rw [next, ← h, Function.update_eq_self]

theorem next_start_of_inactive (h : m key = none) (fresh : Uuid) (now : Moment) :
    m.next now (.start fresh key) = Function.update m key (some (opened fresh key now)) := if_pos h

theorem next_start_of_active {i : Interval} (h : m key = some i) (fresh : Uuid) (now : Moment) :
    m.next now (.start fresh key) = m := by
  rw [next, if_neg (by simp [h])]

/-- The machine has the interval of a row. -/
structure Holds (i : Interval) (r : Row) : Prop where
  id : i.id = r.id
  user : i.user = r.user
  task : i.task = r.task
  started : Instant.ofMoment i.started = .ok r.started

theorem Holds.ended {i : Interval} {r : Row} (h : Holds i r) {now : Moment} {ended : Instant}
    (hend : Instant.ofMoment now = .ok ended) :
    Machine.ended i now = (r.stoppedAt ended).interval := by
  obtain ⟨id, user, task, started, stopped⟩ := i
  obtain ⟨rfl, rfl, rfl, hstarted⟩ := h
  simp only [Machine.ended, Moment.inUtc_of_ofMoment hstarted, Moment.inUtc_of_ofMoment hend]
  rfl

theorem holds_opened {fresh : Uuid} {now : Moment} {row : Row} (hid : row.id = fresh)
    (hkey : row.key.ref = key) (hstart : Instant.ofMoment now = .ok row.started) :
    Holds (opened fresh key now) row := by
  subst hid hkey
  exact ⟨rfl, rfl, rfl, hstart⟩

/-- The active keys are those with open rows. -/
structure Shows (m : Machine) (rows : List Row) : Prop where
  active : ∀ key i, m key = some i → ∃ r ∈ rows, r.isOpenFor key = true ∧ Holds i r
  opened : ∀ r ∈ rows, r.stopped = none → m r.key.ref ≠ none

theorem Shows.inactive (h : m.Shows rows) (hfree : ∀ r ∈ rows, ¬ r.isOpenFor key = true) :
    m key = none := by
  cases hkey : m key with
  | none => rfl
  | some i =>
    obtain ⟨r, hr, hopen, _⟩ := h.active key i hkey
    exact absurd hopen (hfree r hr)

/-- The key of an open row is active in the interval of that row. -/
theorem Shows.holds (h : m.Shows rows) (hfine : Consistent rows) {r : Row} (hr : r ∈ rows)
    (hopen : r.isOpenFor key = true) : ∃ i, m key = some i ∧ Holds i r := by
  obtain ⟨hkey, hstopped⟩ := Row.isOpenFor_iff.mp hopen
  obtain ⟨i, hi⟩ := Option.ne_none_iff_exists'.mp (h.opened r hr hstopped)
  rw [hkey] at hi
  obtain ⟨r', hr', hopen', hholds⟩ := h.active key i hi
  obtain rfl := hfine.eq_of_isOpenFor hr' hr hopen' hopen
  exact ⟨i, hi, hholds⟩

theorem Shows.insert (h : m.Shows rows) {fresh : Uuid} {now : Moment} {row : Row}
    (hid : row.id = fresh) (hkey : row.key.ref = key)
    (hstart : Instant.ofMoment now = .ok row.started) (hopen : row.stopped = none) :
    Shows (Function.update m key (some (Machine.opened fresh key now))) (rows ++ [row]) where
  active := by
    intro key' i hi
    by_cases hsame : key' = key
    · subst hsame
      rw [Function.update_self] at hi
      cases hi
      exact ⟨row, by simp, Row.isOpenFor_iff.mpr ⟨hkey, hopen⟩, holds_opened hid hkey hstart⟩
    · rw [Function.update_of_ne hsame] at hi
      obtain ⟨r, hr, hfor, hholds⟩ := h.active key' i hi
      exact ⟨r, List.mem_append_left _ hr, hfor, hholds⟩
  opened := by
    intro r hr hstopped
    by_cases hsame : r.key.ref = key
    · rw [hsame, Function.update_self]
      exact Option.some_ne_none _
    · rw [Function.update_of_ne hsame]
      obtain hr | hr := List.mem_append.mp hr
      · exact h.opened r hr hstopped
      · obtain rfl := List.mem_singleton.mp hr
        exact absurd hkey hsame

theorem Shows.closing (h : m.Shows rows) (hfine : Consistent rows) {r : Row} (hr : r ∈ rows)
    (hopen : r.isOpenFor key = true) (ended : Instant) :
    Shows (Function.update m key none) (rows.map (Row.closing r.id ended)) where
  active := by
    intro key' i hi
    by_cases hsame : key' = key
    · rw [hsame, Function.update_self] at hi
      cases hi
    · rw [Function.update_of_ne hsame] at hi
      obtain ⟨r', hr', hfor, hholds⟩ := h.active key' i hi
      have hother : ¬ r'.isOpenWith r.id = true := by
        intro hwith
        obtain rfl := hfine.eq_of_isOpenWith hr' hr hwith
        exact hsame ((Row.isOpenFor_iff.mp hfor).1.symm.trans (Row.isOpenFor_iff.mp hopen).1)
      exact ⟨r', List.mem_map.mpr ⟨r', hr', Row.closing_of_not_open hother ended⟩, hfor, hholds⟩
  opened := by
    intro r' hr' hstopped
    have hother : r'.key.ref ≠ key := fun hkey =>
      hfine.free_of_closing hr hopen ended r' hr' (Row.isOpenFor_iff.mpr ⟨hkey, hstopped⟩)
    rw [Function.update_of_ne hother]
    obtain ⟨x, hx, rfl⟩ := List.mem_map.mp hr'
    by_cases hwith : x.isOpenWith r.id = true
    · rw [Row.closing_of_open hwith] at hstopped
      cases hstopped
    · rw [Row.closing_of_not_open hwith] at hstopped ⊢
      exact h.opened x hx hstopped

end Machine

/-- A finished call with its moment. -/
structure Placed where
  moment : ℚ
  call : Finished Session.Request Interval

/-- Finished calls in an order that explains their answers. -/
structure Lineup (calls : List (Finished Session.Request Interval)) (order : List Placed) : Prop where
  calls : (order.map Placed.call).Perm calls
  sorted : order.Pairwise fun x y => x.moment < y.moment
  within : ∀ x ∈ order, (x.call.began : ℚ) ≤ x.moment ∧ x.moment ≤ x.call.ended
  explained : Machine.idle.Explains (order.map Placed.call)

namespace Placed

/-- The machine when all calls of an order are done. -/
def machine (order : List Placed) : Machine := Machine.idle.after (order.map call)

/-- The calls of an order that are done at a time. -/
def upTo (t : ℚ) (order : List Placed) : List Placed := order.filter (·.moment ≤ t)

/-- The calls of an order that come after a time. -/
def later (t : ℚ) (order : List Placed) : List Placed := order.filter (t < ·.moment)

variable {order early late : List Placed} {x : Placed} {t : ℚ}

theorem upTo_append_later (h : order.Pairwise fun x y => x.moment < y.moment) (t : ℚ) :
    upTo t order ++ later t order = order := by
  induction order with
  | nil => rfl
  | cons x order ih =>
    obtain ⟨hx, horder⟩ := List.pairwise_cons.mp h
    by_cases hle : x.moment ≤ t
    · simp only [upTo, later, List.filter_cons, hle, not_lt.mpr hle, decide_true, decide_false,
        if_true, Bool.false_eq_true, if_false, List.cons_append]
      exact congrArg _ (ih horder)
    · have hlt : t < x.moment := not_le.mp hle
      have hnone : upTo t order = [] := by
        rw [upTo, List.filter_eq_nil_iff]
        intro y hy
        simpa using hlt.trans (hx y hy)
      have hrest := ih horder
      rw [hnone, List.nil_append] at hrest
      rw [upTo, later, List.filter_cons, List.filter_cons, if_neg (by simpa using hlt),
        if_pos (by simpa using hlt)]
      exact (congrArg (· ++ x :: later t order) hnone).trans (by rw [List.nil_append, hrest])

theorem upTo_of_le (h : ∀ x ∈ order, x.moment ≤ t) : upTo t order = order := by
  rw [upTo, List.filter_eq_self]
  simpa using h

theorem upTo_append_of_lt (h : t < x.moment) : upTo t (order ++ [x]) = upTo t order := by
  have hx : [x].filter (·.moment ≤ t) = [] := List.filter_cons_of_neg (by simpa using h)
  rw [upTo, List.filter_append, hx, List.append_nil]
  rfl

theorem machine_append (order : List Placed) (x : Placed) :
    machine (order ++ [x]) = (machine order).next x.call.now x.call.request := by
  rw [machine, List.map_append, Machine.after_append]
  rfl

/-- A call that changes nothing where it stands changes nothing later. -/
theorem machine_insert
    (hsame : (machine early).next x.call.now x.call.request = machine early) :
    machine (early ++ x :: late) = machine (early ++ late) := by
  simp only [machine, List.map_append, List.map_cons, Machine.after_append] at hsame ⊢
  rw [Machine.after, List.foldl_cons, hsame]
  rfl

theorem machine_upTo_insert
    (hsame : (machine early).next x.call.now x.call.request = machine early)
    (hearly : ∀ y ∈ early, y.moment < x.moment) (t : ℚ) :
    machine (upTo t (early ++ x :: late)) = machine (upTo t (early ++ late)) := by
  by_cases hle : x.moment ≤ t
  · have hall : upTo t early = early := upTo_of_le fun y hy => (hearly y hy).le.trans hle
    have hsplit : ∀ rest, upTo t (early ++ rest) = early ++ upTo t rest := by
      intro rest
      rw [upTo, List.filter_append]
      exact congrArg (· ++ _) hall
    have hx : upTo t (x :: late) = x :: upTo t late := List.filter_cons_of_pos (by simpa using hle)
    rw [hsplit, hsplit, hx, machine_insert hsame]
  · have hx : upTo t (x :: late) = upTo t late := List.filter_cons_of_neg (by simpa using hle)
    rw [upTo, List.filter_append, upTo, List.filter_append]
    exact congrArg (fun rest => machine (_ ++ rest)) hx

end Placed

namespace Lineup

open Placed

variable {calls : List (Finished Session.Request Interval)} {order : List Placed}
  {f : Finished Session.Request Interval}

/-- A call may come last. -/
theorem append (h : Lineup calls order) {n : ℕ} (hlt : ∀ x ∈ order, x.moment < n)
    (hanswer : f.answer = (machine order).answer f.now f.request) (hbegan : f.began ≤ n)
    (hended : f.ended = n) : Lineup (calls ++ [f]) (order ++ [⟨n, f⟩]) where
  calls := by
    rw [List.map_append]
    exact h.calls.append_right [f]
  sorted := by
    rw [List.pairwise_append]
    refine ⟨h.sorted, List.pairwise_singleton .., fun x hx y hy => ?_⟩
    obtain rfl := List.mem_singleton.mp hy
    exact hlt x hx
  within := by
    intro x hx
    obtain hx | hx := List.mem_append.mp hx
    · exact h.within x hx
    · obtain rfl := List.mem_singleton.mp hx
      exact ⟨Nat.cast_le.mpr hbegan, by rw [hended]⟩
  explained := by
    rw [List.map_append, Machine.explains_append]
    exact ⟨h.explained, hanswer, trivial⟩

/-- A call that changes nothing may come right after the others that are done at a time. -/
theorem squeeze (h : Lineup calls order) {lo n : ℕ}
    (hanswer : f.answer = (machine (upTo lo order)).answer f.now f.request)
    (hsame : (machine (upTo lo order)).next f.now f.request = machine (upTo lo order))
    (hlo : lo < n) (hbegan : f.began ≤ lo) (hended : f.ended = n) :
    ∃ t : ℚ, lo < t ∧ Lineup (calls ++ [f]) (upTo lo order ++ ⟨t, f⟩ :: later lo order) := by
  have hsplit := upTo_append_later h.sorted lo
  have hearly : ∀ y ∈ upTo lo order, y.moment ≤ lo := fun y hy => by
    simpa using (List.mem_filter.mp hy).2
  have hlater : ∀ y ∈ later lo order, (lo : ℚ) < y.moment := fun y hy => by
    simpa using (List.mem_filter.mp hy).2
  -- Between the time and whatever comes next there is room for the call.
  obtain ⟨t, hlt, hgt⟩ := Order.exists_between_finsets {(lo : ℚ)}
    (insert (n : ℚ) ((later lo order).map moment).toFinset) (by
      simp only [Finset.mem_singleton, Finset.mem_insert, List.mem_toFinset, List.mem_map]
      rintro _ rfl _ (rfl | ⟨y, hy, rfl⟩)
      · exact Nat.cast_lt.mpr hlo
      · exact hlater y hy)
  have hlot : (lo : ℚ) < t := hlt lo (Finset.mem_singleton_self _)
  have htn : t < n := hgt n (Finset.mem_insert_self _ _)
  have htlater : ∀ y ∈ later lo order, t < y.moment := fun y hy =>
    hgt _ (Finset.mem_insert_of_mem (List.mem_toFinset.mpr (List.mem_map_of_mem hy)))
  have hsorted := h.sorted
  rw [← hsplit, List.pairwise_append] at hsorted
  obtain ⟨hfirst, hlast, hacross⟩ := hsorted
  refine ⟨t, hlot, ?_, ?_, ?_, ?_⟩
  · have hperm := h.calls
    rw [← hsplit, List.map_append] at hperm
    rw [List.map_append, List.map_cons]
    exact List.perm_middle.trans ((hperm.cons f).trans (List.perm_append_singleton f calls).symm)
  · rw [List.pairwise_append, List.pairwise_cons]
    refine ⟨hfirst, ⟨htlater, hlast⟩, fun x hx y hy => ?_⟩
    obtain rfl | hy := List.mem_cons.mp hy
    · exact (hearly x hx).trans_lt hlot
    · exact hacross x hx y hy
  · intro x hx
    rw [List.mem_append, List.mem_cons] at hx
    obtain hx | rfl | hx := hx
    · exact h.within x (List.mem_filter.mp hx).1
    · refine ⟨(Nat.cast_le.mpr hbegan).trans hlot.le, ?_⟩
      rw [hended]
      exact htn.le
    · exact h.within x (List.mem_filter.mp hx).1
  · have hexplained := h.explained
    rw [← hsplit, List.map_append, Machine.explains_append] at hexplained
    rw [List.map_append, List.map_cons, Machine.explains_append]
    refine ⟨hexplained.1, hanswer, ?_⟩
    have hrest := hexplained.2
    rwa [show Machine.idle.after ((upTo lo order).map call) = machine (upTo lo order) from rfl,
      ← hsame] at hrest

end Lineup

namespace Board

open Placed

/-- The row that a stop under way has found is open, or since the stop began there has been a time at which
    its key was inactive. -/
def Excused (rows : List Row) (steps : ℕ) (order : List Placed) (p : Session.Pending) : Prop :=
  ∀ key i, p.stage.target? = some (key, i) → (∃ r ∈ rows, r.isOpenWith i.id = true) ∨
    ∃ lo : ℕ, p.began ≤ lo ∧ lo < steps ∧ machine (upTo lo order) key = none

/-- The rules between a board and an order that explains its finished calls. -/
structure Explained (b : Board) (order : List Placed) : Prop where
  lineup : Lineup b.finished order
  shows : (machine order).Shows b.rows
  excused : ∀ p ∈ b.pending, Excused b.rows b.steps order p

variable {b b' : Board} {order : List Placed} {p : Session.Pending} {rest : List Session.Pending}

theorem Explained.moment_lt (hex : b.Explained order) (h : b.Fine) :
    ∀ x ∈ order, x.moment < b.steps := by
  intro x hx
  have hcall : x.call ∈ b.finished := hex.lineup.calls.mem_iff.mp (List.mem_map_of_mem hx)
  exact (hex.lineup.within x hx).2.trans_lt (Nat.cast_lt.mpr (h.finished _ hcall).2)

/-- The stops that go on stay excused while rows stay open and times stay what they were. -/
private theorem Explained.excused_mono {b : Board} {order order' : List Placed} {rows : List Row}
    {pending : List Session.Pending} (hex : b.Explained order) (hsub : ∀ q ∈ pending, q ∈ b.pending)
    (hrows : ∀ q ∈ pending, ∀ key i, q.stage.target? = some (key, i) →
      (∃ r ∈ b.rows, r.isOpenWith i.id = true) → (∃ r ∈ rows, r.isOpenWith i.id = true) ∨
        ∃ lo : ℕ, q.began ≤ lo ∧ lo < b.steps + 1 ∧ machine (upTo lo order') key = none)
    (htimes : ∀ lo : ℕ, lo < b.steps → machine (upTo lo order') = machine (upTo lo order)) :
    ∀ q ∈ pending, Excused rows (b.steps + 1) order' q := by
  intro q hq key i htarget
  obtain hopen | ⟨lo, hbegan, hlo, hfree⟩ := hex.excused q (hsub q hq) key i htarget
  · exact hrows q hq key i htarget hopen
  · refine .inr ⟨lo, hbegan, Nat.lt_succ_of_lt hlo, ?_⟩
    rw [htimes lo hlo]
    exact hfree

/-- The calls under way go on, and nothing else happens. -/
private theorem explained_calls {b : Board} {order : List Placed} (hex : b.Explained order)
    {pending : List Session.Pending} {clock : Moment}
    (hpending : ∀ q ∈ pending, q ∈ b.pending ∨ Excused b.rows b.steps order q) :
    Explained ⟨b.rows, clock, b.steps + 1, pending, b.finished⟩ order := by
  refine ⟨hex.lineup, hex.shows, fun q hq key i htarget => ?_⟩
  have hexcused : Excused b.rows b.steps order q := (hpending q hq).elim (hex.excused q) id
  obtain hopen | ⟨lo, hbegan, hlo, hfree⟩ := hexcused key i htarget
  · exact .inl hopen
  · exact .inr ⟨lo, hbegan, Nat.lt_succ_of_lt hlo, hfree⟩

/-- A call that ends where the machine gives its answer has its moment there. -/
private theorem explained_append {b : Board} {order : List Placed} (hex : b.Explained order)
    (h : b.Fine) {f : Finished Session.Request Interval} {rows : List Row}
    {pending : List Session.Pending} (hbegan : f.began ≤ b.steps) (hended : f.ended = b.steps)
    (hanswer : f.answer = (machine order).answer f.now f.request)
    (hshows : ((machine order).next f.now f.request).Shows rows)
    (hsub : ∀ q ∈ pending, q ∈ b.pending)
    (hrows : ∀ q ∈ pending, ∀ key i, q.stage.target? = some (key, i) → ∀ r ∈ b.rows,
      r.isOpenWith i.id = true → (∃ r ∈ rows, r.isOpenWith i.id = true) ∨
        (machine order).next f.now f.request key = none) :
    Explained ⟨rows, b.clock, b.steps + 1, pending, b.finished ++ [f]⟩
      (order ++ [⟨b.steps, f⟩]) := by
  have hlt := hex.moment_lt h
  refine ⟨hex.lineup.append hlt hanswer hbegan hended, ?_, hex.excused_mono hsub ?_ ?_⟩
  · rw [machine_append]
    exact hshows
  · intro q hq key i htarget hopen
    obtain ⟨r, hr, hopen⟩ := hopen
    refine (hrows q hq key i htarget r hr hopen).imp id fun hfree => ?_
    have hall : ∀ x ∈ order ++ [⟨b.steps, f⟩], x.moment ≤ (b.steps : ℚ) := by
      intro x hx
      obtain hx | hx := List.mem_append.mp hx
      · exact (hlt x hx).le
      · obtain rfl := List.mem_singleton.mp hx
        exact le_rfl
    refine ⟨b.steps, (h.pending q (hsub q hq)).1.le, Nat.lt_succ_self _, ?_⟩
    rw [upTo_of_le hall, machine_append]
    exact hfree
  · intro lo hlo
    rw [upTo_append_of_lt (Nat.cast_lt.mpr hlo)]

/-- A call that ends without a change. -/
private theorem explained_unchanged {b : Board} {order : List Placed} (hex : b.Explained order)
    (h : b.Fine) {f : Finished Session.Request Interval} {pending : List Session.Pending}
    (hbegan : f.began ≤ b.steps) (hended : f.ended = b.steps)
    (hanswer : f.answer = (machine order).answer f.now f.request)
    (hsame : (machine order).next f.now f.request = machine order)
    (hsub : ∀ q ∈ pending, q ∈ b.pending) :
    Explained ⟨b.rows, b.clock, b.steps + 1, pending, b.finished ++ [f]⟩
      (order ++ [⟨b.steps, f⟩]) := by
  refine explained_append hex h hbegan hended hanswer ?_ hsub
    fun _ _ _ _ _ r hr hopen => .inl ⟨r, hr, hopen⟩
  rw [hsame]
  exact hex.shows

/-- A stop that ends its row has its moment there. -/
private theorem explained_close {b : Board} {order : List Placed} (hex : b.Explained order)
    (h : b.Fine) {began : ℕ} {key : KeyRef} {i : Interval} {now : Moment}
    {rest : List Session.Pending} {r : Row} {ended : Instant}
    (hperm : b.pending.Perm (⟨began, .timed key i now⟩ :: rest)) (hr : r ∈ b.rows)
    (hid : r.id = i.id) (hopen : r.stopped = none) (hend : Instant.ofMoment now = .ok ended) :
    ∃ order', Explained ⟨b.rows.map (Row.closing i.id ended), b.clock, b.steps + 1, rest, b.finished ++
      [⟨.stop key, began, b.steps, now, .ok (r.stoppedAt ended).interval⟩]⟩ order' := by
  have hmem : ⟨began, .timed key i now⟩ ∈ b.pending := hperm.mem_iff.mpr List.mem_cons_self
  have hbegan : began < b.steps := h.began_lt hperm
  have hsub : ∀ q ∈ rest, q ∈ b.pending :=
    fun q hq => hperm.mem_iff.mpr (List.mem_cons_of_mem _ hq)
  have hfor := h.isOpenFor_of_target hmem rfl hr hid hopen
  obtain ⟨j, hactive, hholds⟩ := hex.shows.holds h.consistent hr hfor
  refine ⟨_, explained_append hex h hbegan.le rfl ?_ ?_ hsub ?_⟩
  · simp only [Machine.answer, hactive, hholds.ended hend]
  · rw [← hid]
    exact hex.shows.closing h.consistent hr hfor ended
  · intro q hq key' j htarget r' hr' hwith
    obtain ⟨hid', hstopped'⟩ := Row.isOpenWith_iff.mp hwith
    by_cases hsame : r'.id = i.id
    · -- Another stop has found the same row, so it is a stop of the same key.
      right
      obtain rfl := h.consistent.eq_of_id hr' hr (hsame.trans hid.symm)
      have hfor' := h.isOpenFor_of_target (hsub q hq) htarget hr' hid' hstopped'
      have hkey : key' = key :=
        (Row.isOpenFor_iff.mp hfor').1.symm.trans (Row.isOpenFor_iff.mp hfor).1
      rw [hkey, Machine.next, Function.update_self]
    · left
      have hother : ¬ r'.isOpenWith i.id = true :=
        fun hclosed => hsame (Row.isOpenWith_iff.mp hclosed).1
      exact ⟨r', List.mem_map.mpr ⟨r', hr', Row.closing_of_not_open hother ended⟩, hwith⟩

/-- A stop that comes too late has its moment right after the stop that came first. -/
private theorem explained_late {b : Board} {order : List Placed} (hex : b.Explained order)
    {f : Finished Session.Request Interval} {key : KeyRef} {pending : List Session.Pending} {lo : ℕ}
    (hrequest : f.request = .stop key) (hanswer : f.answer = .error (Session.notStarted key))
    (hlo : lo < b.steps) (hbegan : f.began ≤ lo) (hended : f.ended = b.steps)
    (hfree : machine (upTo lo order) key = none) (hsub : ∀ q ∈ pending, q ∈ b.pending) :
    ∃ order', Explained ⟨b.rows, b.clock, b.steps + 1, pending, b.finished ++ [f]⟩ order' := by
  have hsame : (machine (upTo lo order)).next f.now f.request = machine (upTo lo order) := by
    rw [hrequest]
    exact Machine.next_stop_of_inactive hfree f.now
  have hanswer' : f.answer = (machine (upTo lo order)).answer f.now f.request := by
    rw [hanswer, hrequest, Machine.answer, hfree]
  obtain ⟨t, hlot, hlineup⟩ := hex.lineup.squeeze hanswer' hsame hlo hbegan hended
  have hsplit := upTo_append_later hex.lineup.sorted lo
  refine ⟨_, hlineup, ?_, hex.excused_mono hsub (fun _ _ _ _ _ hopen => .inl hopen) ?_⟩
  · rw [machine_insert hsame, hsplit]
    exact hex.shows
  · intro lo' _
    have hearly : ∀ y ∈ upTo lo order, y.moment < t := by
      intro y hy
      have hle : y.moment ≤ lo := by simpa using (List.mem_filter.mp hy).2
      exact hle.trans_lt hlot
    rw [machine_upTo_insert hsame hearly, hsplit]

/-- Moves keep the finished calls explained. -/
theorem Move.explained (hmove : b.Move b') (h : b.Fine) (hex : b.Explained order) :
    ∃ order', b'.Explained order' := by
  cases hmove with
  | clock _ _ => exact ⟨order, explained_calls hex fun _ hq => .inl hq⟩
  | idle => exact ⟨order, explained_calls hex fun _ hq => .inl hq⟩
  | @stamp fresh key _ _ _ =>
    refine ⟨order, explained_calls hex fun q hq => ?_⟩
    obtain hq | hq := List.mem_append.mp hq
    · exact .inl hq
    · obtain rfl := List.mem_singleton.mp hq
      exact .inr (by rintro _ _ ⟨⟩)
  | @miss key hfree =>
    have hinactive := hex.shows.inactive hfree
    refine ⟨_, explained_unchanged hex h le_rfl rfl ?_ ?_ fun _ hq => hq⟩
    · simp only [Machine.answer, hinactive]
    · exact Machine.next_stop_of_inactive hinactive _
  | @spot key r hr hopen =>
    refine ⟨order, explained_calls hex fun q hq => ?_⟩
    obtain hq | hq := List.mem_append.mp hq
    · exact .inl hq
    · obtain rfl := List.mem_singleton.mp hq
      refine .inr ?_
      rintro _ _ ⟨⟩
      exact .inl ⟨r, hr, Row.isOpenWith_iff.mpr ⟨rfl, (Row.isOpenFor_iff.mp hopen).2⟩⟩
  | @insert began fresh key now rest row hperm hfree hid hkey hstart hopen =>
    have hinactive := hex.shows.inactive hfree
    have hbegan : began < b.steps := h.began_lt hperm
    refine ⟨_, explained_append hex h hbegan.le rfl ?_ ?_
      (fun q hq => hperm.mem_iff.mpr (List.mem_cons_of_mem _ hq))
      fun _ _ _ _ _ r hr hwith => .inl ⟨r, List.mem_append_left _ hr, hwith⟩⟩
    · subst hid hkey
      simp only [Machine.answer, hinactive]
      rfl
    · rw [Machine.next_start_of_inactive hinactive]
      exact hex.shows.insert hid hkey hstart hopen
  | @clash began fresh key now rest r hperm hr hopen =>
    obtain ⟨i, hactive, _⟩ := hex.shows.holds h.consistent hr hopen
    have hbegan : began < b.steps := h.began_lt hperm
    refine ⟨_, explained_unchanged hex h hbegan.le rfl ?_ ?_
      fun q hq => hperm.mem_iff.mpr (List.mem_cons_of_mem _ hq)⟩
    · simp only [Machine.answer, hactive]
    · exact Machine.next_start_of_active hactive _ _
  | @time began key i rest hperm =>
    refine ⟨order, explained_calls hex fun q hq => ?_⟩
    obtain hq | hq := List.mem_append.mp hq
    · exact .inl (hperm.mem_iff.mpr (List.mem_cons_of_mem _ hq))
    · obtain rfl := List.mem_singleton.mp hq
      refine .inr ?_
      rintro _ _ ⟨⟩
      exact hex.excused _ (hperm.mem_iff.mpr List.mem_cons_self) key i rfl
  | close hperm hr hid hopen hend => exact explained_close hex h hperm hr hid hopen hend
  | @late began key i now rest hperm hclosed =>
    have hmem : ⟨began, .timed key i now⟩ ∈ b.pending := hperm.mem_iff.mpr List.mem_cons_self
    obtain ⟨r, hr, hopen⟩ | ⟨lo, hlow, hlo, hfree⟩ := hex.excused _ hmem key i rfl
    · exact absurd hopen (hclosed r hr)
    · exact explained_late hex rfl rfl hlo hlow rfl hfree
        fun q hq => hperm.mem_iff.mpr (List.mem_cons_of_mem _ hq)

/-- Sequences of moves keep the rules and the finished calls explained. -/
theorem explained_of_moves (hmoves : Relation.ReflTransGen Move b b') (h : b.Fine)
    (hex : ∃ order, b.Explained order) : b'.Fine ∧ ∃ order, b'.Explained order := by
  induction hmoves with
  | refl => exact ⟨h, hex⟩
  | tail _ hmove ih =>
    obtain ⟨hfine, order, hexplained⟩ := ih
    exact ⟨hmove.fine hfine, hmove.explained hfine hexplained⟩

end Board

namespace System

/-- In steady surroundings, from an empty table: whatever the number of starts and stops, their keys and
    the order of their steps, every finished one has a moment between its first and its last event such
    that a machine that goes through the calls in the order of their moments gives all their answers. The
    moment of a call is its last event, unless it is a stop that came too late for the row it had found: that
    one has its moment right after the stop that came first. -/
theorem linearizable {db : Database} {clock : Moment} {events : List Event}
    (hblank : db.Blank) (hcalm : db.Undisturbed) (hclock : clock.Storable)
    (hsteady : (on db clock).Steady events) :
    ∃ order, Lineup ((on db clock).run events).finished order := by
  have hsound := sound_on hblank hcalm hclock
  obtain ⟨hmoves, _⟩ := hsound.run_moves hsteady
  have hrows : (on db clock).board.rows = [] :=
    (Option.some.inj (hblank.rows.symm.trans hsound.ready.stored)).symm
  have hstart : (on db clock).board.Explained [] := by
    refine ⟨⟨.nil, .nil, by simp, trivial⟩, ⟨?_, ?_⟩, by simp [System.board, on]⟩
    · rintro key i ⟨⟩
    · simp [hrows]
  obtain ⟨_, order, hexplained⟩ := Board.explained_of_moves hmoves hsound.fine ⟨[], hstart⟩
  exact ⟨order, hexplained.lineup⟩

/-- Two stops find the same row. The second one reads the clock when the row has been ended and its key
    is active again. -/
def race : List Event :=
  let key : KeyRef := ⟨some (.int 1), some (.int 1)⟩
  [.ask (.start (.ofNat 0xa1) key), .resume 0, .clock (tick 2), .ask (.stop key), .ask (.stop key),
    .resume 0, .resume 1, .ask (.start (.ofNat 0xa2) key), .resume 1, .clock (tick 3), .resume 0,
    .resume 0]

/-- The stop that lost the race is explained although its key is active when it ends. -/
theorem race_linearizable :
    (on {} (tick 1)).Steady race ∧
    ((on {} (tick 1)).run race).finished.map (fun f => f.answer.toOption.isSome) =
      [true, true, true, false] ∧
    ∃ order, Lineup ((on {} (tick 1)).run race).finished order := by
  have hsteady : (on {} (tick 1)).Steady race := by decide +kernel
  exact ⟨hsteady, by decide +kernel,
    linearizable ⟨rfl, rfl⟩ (fun _ _ => rfl) (by decide) hsteady⟩

end System
end Worklog
