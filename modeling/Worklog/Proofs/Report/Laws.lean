import Worklog.Proofs.Report.Selection

namespace Worklog

namespace Interval

/-- All times of an interval are aware. -/
structure Aware (i : Interval) : Prop where
  started : i.started.isAware = true
  stopped : ∀ ended ∈ i.stopped, ended.isAware = true

/-- The interval ends before it starts. -/
def EndsEarly (i : Interval) (now : Moment) : Prop := (i.effectiveEnd now).instant < i.started.instant

instance (i : Interval) (now : Moment) : Decidable (i.EndsEarly now) := inferInstanceAs (Decidable (_ < _))

variable {i : Interval} {now : Moment}

theorem Aware.ended (h : i.Aware) (hnow : now.isAware = true) : (i.effectiveEnd now).isAware = true := by
  unfold effectiveEnd
  cases hstopped : i.stopped with
  | none => exact hnow
  | some ended => exact h.stopped ended hstopped

theorem Aware.sane (h : i.Aware) (hnow : now.isAware = true) (hlate : ¬ i.EndsEarly now) : i.Sane now :=
  ⟨h.started, h.ended hnow, not_lt.mp hlate⟩

/-- No microsecond of an interval is lost or counted twice where a window is split. -/
theorem share_split (i : Interval) (now : Moment) {a b c : Moment} (hab : a.instant ≤ b.instant)
    (hbc : b.instant ≤ c.instant) :
    i.share ⟨a, c⟩ now = i.share ⟨a, b⟩ now + i.share ⟨b, c⟩ now := by
  rw [share_eq, share_eq, share_eq]
  dsimp only
  omega

end Interval

namespace Report

variable {i : Interval} {is js : List Interval} {w : Window} {now : Moment} {rows : List TaskTime}

theorem clip_of_endsEarly (h : i.Aware) (hnow : now.isAware = true) (hearly : i.EndsEarly now) (w : Window) :
    clip i w now = .error (endsBeforeStart i (i.effectiveEnd now)) := by
  have hbefore : (i.effectiveEnd now).before i.started = .ok true := by
    rw [Moment.before_of_aware (h.ended hnow) h.started]
    exact congrArg _ (decide_eq_true hearly)
  simp only [clip, hbefore]
  rfl

/-- A report over intervals in order is given exactly as the ordered rows that tell the times of the tasks. -/
theorem aggregate_eq_ok_iff_tallies (hw : w.Sane) (hsane : ∀ i ∈ is, i.Sane now)
    (hints : ∀ i ∈ is, ∃ n : Int, i.task = .int n)
    (hshort : ∀ task, (spent task is w now : Int) ≤ Duration.greatest) :
    aggregate is w now = .ok rows ↔ Tallies rows is w now ∧ rows.Pairwise Ahead := by
  have hparts := parts_eq hw hsane
  rw [aggregate_eq_ok_iff hints]
  constructor
  · rintro ⟨ps, hps, hadds, hordered, _⟩
    obtain rfl := Except.ok.inj (hparts.symm.trans hps)
    have htallies := tallies_iff_adds.mpr hadds
    exact ⟨htallies, (pairwise_ahead_iff (htallies.ints hints) hadds.nodup).mpr hordered⟩
  · rintro ⟨htallies, hahead⟩
    refine ⟨_, hparts, tallies_iff_adds.mp htallies, hahead.imp precedes_of_ahead, fun task => ?_⟩
    rw [total_shares]
    exact hshort task

/-- The report over any intervals with aware times and a window in order, while no task has more time than a
    duration holds: the first interval that ends before it starts is named as a violation; without one there
    is a report, and it is the only list of rows that has a row for just the tasks with an interval that meets
    the window, tells of each how many microseconds of the window its intervals have, and has longer times
    first and equal ones by task. -/
theorem aggregate_by_reference (hw : w.Sane) (hnow : now.isAware = true) (haware : ∀ i ∈ is, i.Aware)
    (hints : ∀ i ∈ is, ∃ n : Int, i.task = .int n)
    (hshort : ∀ task, (spent task is w now : Int) ≤ Duration.greatest) :
    (∀ i, is.find? (·.EndsEarly now) = some i →
      aggregate is w now = .error (endsBeforeStart i (i.effectiveEnd now))) ∧
    (is.find? (·.EndsEarly now) = none →
      (∃ rows, aggregate is w now = .ok rows) ∧
      ∀ rows, aggregate is w now = .ok rows ↔ Tallies rows is w now ∧ rows.Pairwise Ahead) := by
  constructor
  · intro i hfind
    obtain ⟨hearly, before, after, rfl, hbefore⟩ := List.find?_eq_some_iff_append.mp hfind
    have hmem : ∀ j ∈ before, j ∈ before ++ i :: after := fun j hj => List.mem_append_left _ hj
    have hsane : ∀ j ∈ before, j.Sane now := fun j hj =>
      (haware j (hmem j hj)).sane hnow (by simpa using hbefore j hj)
    refine aggregate_of_fault (fun j hj => hints j (hmem j hj)) (parts_eq hw hsane) (fun task => ?_)
      (clip_of_endsEarly (haware i (by simp)) hnow (of_decide_eq_true hearly) w) after
    have hall := hshort task
    rw [spent_append] at hall
    rw [total_shares]
    omega
  · intro hnone
    have hsane : ∀ i ∈ is, i.Sane now := fun i hi =>
      (haware i hi).sane hnow (by simpa using List.find?_eq_none.mp hnone i hi)
    refine ⟨?_, fun rows => aggregate_eq_ok_iff_tallies hw hsane hints hshort⟩
    obtain ⟨rows, hrows, _⟩ | ⟨_, task, _, hlong⟩ := aggregate_cases hw hsane hints
    · exact ⟨rows, hrows⟩
    · exact absurd (hshort task) (not_le.mpr hlong)

/-- Overlapping intervals of one task, equal times, an open interval, one without a length, and one that ends
    where the window of microseconds 3 to 6 starts. -/
def motley : List Interval :=
  [⟨.ofNat 0xa1, .int 1, .int 2, tick 4, some (tick 4)⟩,
    ⟨.ofNat 0xa2, .int 1, .int 7, tick 1, some (tick 5)⟩,
    ⟨.ofNat 0xa3, .int 1, .int 4, tick 2, some (tick 5)⟩,
    ⟨.ofNat 0xa4, .int 2, .int 3, tick 3, none⟩,
    ⟨.ofNat 0xa5, .int 1, .int 9, tick 0, some (tick 3)⟩,
    ⟨.ofNat 0xa6, .int 1, .int 7, tick 3, some (tick 8)⟩]

/-- An open interval that has not started yet, and one that ends before it starts. -/
def illFormed : List Interval :=
  [⟨.ofNat 0xa7, .int 1, .int 9, tick 6, none⟩, ⟨.ofNat 0xa8, .int 1, .int 9, tick 4, some (tick 2)⟩]

theorem motley_report :
    aggregate motley ⟨tick 3, tick 6⟩ (tick 5) = .ok [⟨.int 7, 5⟩, ⟨.int 3, 2⟩, ⟨.int 4, 2⟩, ⟨.int 2, 0⟩] ∧
    aggregate (motley ++ illFormed) ⟨tick 3, tick 6⟩ (tick 5) =
      .error (endsBeforeStart ⟨.ofNat 0xa7, .int 1, .int 9, tick 6, none⟩ (tick 5)) := by
  have hw : Window.Sane ⟨tick 3, tick 6⟩ := ⟨rfl, rfl, by decide⟩
  have hawareAll : ∀ i ∈ motley ++ illFormed, i.Aware := by
    have htimes : ∀ i ∈ motley ++ illFormed, i.started.isAware = true ∧ ∀ ended ∈ i.stopped,
      ended.isAware = true := by decide
    exact fun i hi => ⟨(htimes i hi).1, (htimes i hi).2⟩
  have hintsAll : ∀ i ∈ motley ++ illFormed, ∃ n : Int, i.task = .int n := by
    simp [motley, illFormed]
  have hshort : ∀ is : List Interval, is.length ≤ 8 → ∀ task,
      (spent task is ⟨tick 3, tick 6⟩ (tick 5) : Int) ≤ Duration.greatest := by
    intro is hlength task
    have hcard : (Window.span ⟨tick 3, tick 6⟩).card = 3 := by decide
    have hspent := spent_le task is ⟨tick 3, tick 6⟩ (tick 5)
    have hgreatest : 24 ≤ Duration.greatest := by decide
    rw [hcard] at hspent
    omega
  have hnow : (tick 5).isAware = true := rfl
  have hmem : ∀ i ∈ motley, i ∈ motley ++ illFormed := fun i hi => List.mem_append_left _ hi
  constructor
  · obtain ⟨_, hreport⟩ := aggregate_by_reference hw hnow (fun i hi => hawareAll i (hmem i hi))
      (fun i hi => hintsAll i (hmem i hi)) (hshort motley (by decide))
    obtain ⟨_, honly⟩ := hreport (by decide)
    refine (honly _).mpr ⟨⟨by decide, by decide, by decide, by decide⟩, ?_⟩
    simp [Ahead]
  · exact (aggregate_by_reference hw hnow hawareAll hintsAll (hshort _ (by decide))).1 _ (by decide)

/-- The times in two windows that follow each other are together those in the whole. -/
theorem spent_split (task : Ident) (is : List Interval) (now : Moment) {a b c : Moment}
    (hab : a.instant ≤ b.instant) (hbc : b.instant ≤ c.instant) :
    spent task is ⟨a, c⟩ now = spent task is ⟨a, b⟩ now + spent task is ⟨b, c⟩ now := by
  induction is with
  | nil => rfl
  | cons i is ih =>
    rw [spent_cons, spent_cons, spent_cons, ih, i.share_split now hab hbc]
    split <;> omega

/-- Reports over two windows that follow each other neither lose nor double time: of every task they tell
    together what the report over the whole tells. Their rows need not be those of the whole. -/
theorem timeOf_split {a b c : Moment} (ha : a.isAware = true) (hb : b.isAware = true)
    (hc : c.isAware = true) (hab : a.instant ≤ b.instant) (hbc : b.instant ≤ c.instant)
    (hsane : ∀ i ∈ is, i.Sane now) (hints : ∀ i ∈ is, ∃ n : Int, i.task = .int n)
    (hshort : ∀ task, (spent task is ⟨a, c⟩ now : Int) ≤ Duration.greatest) :
    ∃ whole first second, aggregate is ⟨a, c⟩ now = .ok whole ∧ aggregate is ⟨a, b⟩ now = .ok first ∧
      aggregate is ⟨b, c⟩ now = .ok second ∧
      ∀ task, timeOf task whole = timeOf task first + timeOf task second := by
  have hgiven : ∀ w : Window, w.Sane → (∀ task, spent task is w now ≤ spent task is ⟨a, c⟩ now) →
      ∃ rows, aggregate is w now = .ok rows ∧ ∀ task, timeOf task rows = spent task is w now := by
    intro w hw hle
    obtain ⟨rows, hrows, htallies⟩ | ⟨_, task, _, hlong⟩ := aggregate_cases hw hsane hints
    · exact ⟨rows, hrows, htallies.timeOf_eq⟩
    · have hpart := hle task
      have hwhole := hshort task
      omega
  have hsplit := fun task => spent_split task is now hab hbc
  obtain ⟨whole, hwhole, hwholeTime⟩ := hgiven ⟨a, c⟩ ⟨ha, hc, hab.trans hbc⟩ fun _ => Nat.le_refl _
  obtain ⟨first, hfirst, hfirstTime⟩ := hgiven ⟨a, b⟩ ⟨ha, hb, hab⟩ fun task => by
    rw [hsplit]
    exact Nat.le_add_right ..
  obtain ⟨second, hsecond, hsecondTime⟩ := hgiven ⟨b, c⟩ ⟨hb, hc, hbc⟩ fun task => by
    rw [hsplit]
    exact Nat.le_add_left ..
  refine ⟨whole, first, second, hwhole, hfirst, hsecond, fun task => ?_⟩
  rw [hwholeTime, hfirstTime, hsecondTime, hsplit, Nat.cast_add]

/-- At microsecond 4, where task 2 has an interval without a length, the window is split: the task has a row
    in the report over the whole only. -/
theorem motley_split :
    ∃ whole first second, aggregate motley ⟨tick 3, tick 6⟩ (tick 5) = .ok whole ∧
      aggregate motley ⟨tick 3, tick 4⟩ (tick 5) = .ok first ∧
      aggregate motley ⟨tick 4, tick 6⟩ (tick 5) = .ok second ∧
      whole.map (·.task) = [.int 7, .int 3, .int 4, .int 2] ∧
      first.map (·.task) = [.int 7, .int 3, .int 4] ∧ second.map (·.task) = [.int 7, .int 3, .int 4] ∧
      ∀ task, timeOf task whole = timeOf task first + timeOf task second := by
  have hsane : ∀ i ∈ motley, i.Sane (tick 5) := by
    have htimes : ∀ i ∈ motley, i.started.isAware = true ∧ (i.effectiveEnd (tick 5)).isAware = true ∧
      i.started.instant ≤ (i.effectiveEnd (tick 5)).instant := by decide
    exact fun i hi => ⟨(htimes i hi).1, (htimes i hi).2.1, (htimes i hi).2.2⟩
  have hshort : ∀ task, (spent task motley ⟨tick 3, tick 6⟩ (tick 5) : Int) ≤ Duration.greatest := by
    intro task
    have hspent := spent_le task motley ⟨tick 3, tick 6⟩ (tick 5)
    have hlength : motley.length * (Window.span ⟨tick 3, tick 6⟩).card = 18 := by decide
    have hgreatest : 18 ≤ Duration.greatest := by decide
    omega
  have hstart : (tick 3).isAware = true := rfl
  have hmiddle : (tick 4).isAware = true := rfl
  have hstop : (tick 6).isAware = true := rfl
  obtain ⟨whole, first, second, hwhole, hfirst, hsecond, htimes⟩ := timeOf_split hstart hmiddle hstop
    (by decide) (by decide) hsane (by simp [motley]) hshort
  refine ⟨whole, first, second, hwhole, hfirst, hsecond, ?_, ?_, ?_, htimes⟩
  · cases hwhole
    rfl
  · cases hfirst
    rfl
  · cases hsecond
    rfl

/-- A report that is given is given for every order of the intervals. -/
theorem aggregate_of_perm (hperm : is.Perm js) (hints : ∀ i ∈ is, ∃ n : Int, i.task = .int n)
    (h : aggregate is w now = .ok rows) : aggregate js w now = .ok rows := by
  obtain ⟨ps, hparts, hadds, hordered, hshort⟩ := (aggregate_eq_ok_iff hints).mp h
  obtain ⟨qs, hqs, hsame⟩ := parts_perm hperm hparts
  have hintsPerm : ∀ i ∈ js, ∃ n : Int, i.task = .int n := fun i hi => hints i (hperm.mem_iff.mpr hi)
  refine (aggregate_eq_ok_iff hintsPerm).mpr ⟨qs, hqs, hadds.of_perm hsame, hordered, fun task => ?_⟩
  rw [← total_perm task hsame]
  exact hshort task

/-- The order of the intervals makes no difference to a report, whatever their times, the window and the
    present are: the same rows in the same order are given for every order, or none is given for any. Which
    fault ends it may depend on the order. -/
theorem aggregate_perm (hperm : is.Perm js) (hints : ∀ i ∈ is, ∃ n : Int, i.task = .int n) (w : Window)
    (now : Moment) :
    (∀ rows, aggregate is w now = .ok rows ↔ aggregate js w now = .ok rows) ∧
      ((∃ f, aggregate is w now = .error f) ↔ ∃ f, aggregate js w now = .error f) := by
  have hintsPerm : ∀ i ∈ js, ∃ n : Int, i.task = .int n := fun i hi => hints i (hperm.mem_iff.mpr hi)
  have hgiven : ∀ rows, aggregate is w now = .ok rows ↔ aggregate js w now = .ok rows := fun rows =>
    ⟨aggregate_of_perm hperm hints, aggregate_of_perm hperm.symm hintsPerm⟩
  have hfailed : ∀ is, (∃ f, aggregate is w now = .error f) ↔ ¬ ∃ rows, aggregate is w now = .ok rows := by
    intro is
    cases aggregate is w now <;> simp
  refine ⟨hgiven, ?_⟩
  rw [hfailed, hfailed, exists_congr hgiven]

/-- Read backwards the intervals have the same report, and with one more that has no offset there is none:
    the fault is the one that is met first. -/
theorem motley_reversed :
    let naive : Interval := ⟨.ofNat 0xa9, .int 1, .int 7, ⟨3, none, by decide⟩, some (tick 5)⟩
    let spoilt : List Interval := illFormed ++ motley ++ [naive]
    aggregate motley.reverse ⟨tick 3, tick 6⟩ (tick 5) =
        .ok [⟨.int 7, 5⟩, ⟨.int 3, 2⟩, ⟨.int 4, 2⟩, ⟨.int 2, 0⟩] ∧
      (∃ f, aggregate spoilt ⟨tick 3, tick 6⟩ (tick 5) = .error f) ∧
      ∃ f, aggregate spoilt.reverse ⟨tick 3, tick 6⟩ (tick 5) = .error f := by
  intro naive spoilt
  have hnaive : aggregate spoilt.reverse ⟨tick 3, tick 6⟩ (tick 5) = .error (.clock .mixed) := rfl
  refine ⟨?_, ?_, _, hnaive⟩
  · exact ((aggregate_perm motley.reverse_perm.symm (by simp [motley]) _ _).1 _).mp rfl
  · exact (aggregate_perm spoilt.reverse_perm (by simp [spoilt, motley, illFormed, naive]) _ _).2.mp
      ⟨_, hnaive⟩

end Report
end Worklog
