import Mathlib.Algebra.BigOperators.Group.List.Basic
import Mathlib.Data.Int.Interval
import Worklog.Proofs.Report.Parts

namespace Worklog

namespace Moment

variable {a b : Moment}

theorem before_of_sameKind (h : a.isAware = b.isAware) :
    a.before b = .ok (decide (a.instant < b.instant)) := by
  rw [before, if_pos (by simp [sameKind, h])]

theorem before_of_mixed (h : a.isAware ≠ b.isAware) : a.before b = .error .mixed := by
  rw [before, if_neg (by simp [sameKind, h])]

theorem before_of_aware (ha : a.isAware = true) (hb : b.isAware = true) :
    a.before b = .ok (decide (a.instant < b.instant)) := before_of_sameKind (ha.trans hb.symm)

theorem since_of_aware (ha : a.isAware = true) (hb : b.isAware = true) :
    a.since b = .ok (a.instant - b.instant) := by
  rw [since, if_pos (by simp [sameKind, ha, hb])]

theorem earliest_of_aware (ha : a.isAware = true) (hb : b.isAware = true) :
    ∃ m, a.earliest b = .ok m ∧ m.isAware = true ∧ m.instant = min a.instant b.instant := by
  refine ⟨_, by rw [earliest, before_of_aware hb ha]; rfl, ?_⟩
  by_cases hlt : b.instant < a.instant
  · simp only [hlt, decide_true, if_true, hb, true_and]
    omega
  · simp only [hlt, decide_false, Bool.false_eq_true, if_false, ha, true_and]
    omega

theorem latest_of_aware (ha : a.isAware = true) (hb : b.isAware = true) :
    ∃ m, a.latest b = .ok m ∧ m.isAware = true ∧ m.instant = max a.instant b.instant := by
  refine ⟨_, by rw [latest, before_of_aware ha hb]; rfl, ?_⟩
  by_cases hlt : a.instant < b.instant
  · simp only [hlt, decide_true, if_true, hb, true_and]
    omega
  · simp only [hlt, decide_false, Bool.false_eq_true, if_false, ha, true_and]
    omega

end Moment

namespace Moment

/-- The microseconds from one moment up to another one. -/
def upTo (start stop : Moment) : Finset Int :=
  -- With the order named the set can be computed, whatever other orders of the integers are known.
  @Finset.Ico Int Int.instLinearOrder.toPreorder Int.instLocallyFiniteOrder start.instant stop.instant

theorem mem_upTo {start stop : Moment} {t : Int} :
    t ∈ start.upTo stop ↔ start.instant ≤ t ∧ t < stop.instant := Finset.mem_Ico

theorem card_upTo (start stop : Moment) :
    (start.upTo stop).card = (stop.instant - start.instant).toNat := Int.card_Ico ..

theorem card_upTo_inter (start stop start' stop' : Moment) : (start.upTo stop ∩ start'.upTo stop').card =
    (min stop.instant stop'.instant - max start.instant start'.instant).toNat := by
  rw [upTo, upTo, Finset.Ico_inter_Ico, Int.card_Ico]

end Moment

/-- The microseconds of a window. -/
def Window.span (w : Window) : Finset Int := w.start.upTo w.stop

/-- The bounds of a window are aware and in order. -/
structure Window.Sane (w : Window) : Prop where
  start : w.start.isAware = true
  stop : w.stop.isAware = true
  ordered : w.start.instant ≤ w.stop.instant

/-- A window is made of bounds that are aware and in order, or it is refused. -/
theorem Window.check_cases (start stop : Moment) :
    (check start stop = .ok ⟨start, stop⟩ ∧ Window.Sane ⟨start, stop⟩) ∨
      ∃ problem, check start stop = .error (.failure (Failure.mk (.invalidRange problem) {})) ∧
        ¬ Window.Sane ⟨start, stop⟩ := by
  unfold check
  by_cases haware : (start.isAware && stop.isAware) = true
  · rw [if_pos haware]
    obtain ⟨hstart, hstop⟩ := Bool.and_eq_true_iff.mp haware
    by_cases hinverted : stop.instant < start.instant
    · rw [if_pos hinverted]
      exact .inr ⟨.inverted, rfl, fun hsane => absurd hsane.ordered (not_le.mpr hinverted)⟩
    · rw [if_neg hinverted]
      exact .inl ⟨rfl, hstart, hstop, not_lt.mp hinverted⟩
  · rw [if_neg haware]
    refine .inr ⟨.naive, rfl, fun hsane => haware ?_⟩
    rw [Bool.and_eq_true_iff]
    exact ⟨hsane.start, hsane.stop⟩

namespace Interval

/-- The microseconds of an interval as of `now`. -/
def span (i : Interval) (now : Moment) : Finset Int := i.started.upTo (i.effectiveEnd now)

/-- The interval starts before the window stops and ends after it starts. -/
def Meets (i : Interval) (w : Window) (now : Moment) : Prop :=
  i.started.instant < w.stop.instant ∧ w.start.instant < (i.effectiveEnd now).instant

instance (i : Interval) (w : Window) (now : Moment) : Decidable (i.Meets w now) :=
  inferInstanceAs (Decidable (_ ∧ _))

/-- The time from the later of the two starts, of an interval and a window, to the earlier of the two ends. It is
    below zero when the starts come after the ends. -/
def overlap (i : Interval) (w : Window) (now : Moment) : Int :=
  min (i.effectiveEnd now).instant w.stop.instant - max i.started.instant w.start.instant

/-- How many microseconds of a window belong to an interval. -/
def share (i : Interval) (w : Window) (now : Moment) : Nat := (i.span now ∩ w.span).card

/-- The times of an interval are aware and in order as of `now`. -/
structure Sane (i : Interval) (now : Moment) : Prop where
  started : i.started.isAware = true
  ended : (i.effectiveEnd now).isAware = true
  ordered : i.started.instant ≤ (i.effectiveEnd now).instant

variable {i : Interval} {w : Window} {now : Moment}

theorem share_eq (i : Interval) (w : Window) (now : Moment) : i.share w now =
    (min (i.effectiveEnd now).instant w.stop.instant -
      max i.started.instant w.start.instant).toNat := Moment.card_upTo_inter ..

theorem share_of_not_meets (h : ¬ i.Meets w now) : i.share w now = 0 := by
  rw [share_eq]
  unfold Meets at h
  omega

/-- Where an interval in order meets a window, only an inverted window brings the starts behind the ends. -/
theorem overlap_neg_iff (hordered : i.started.instant ≤ (i.effectiveEnd now).instant)
    (hmeets : i.Meets w now) : i.overlap w now < 0 ↔ w.stop.instant < w.start.instant := by
  obtain ⟨hbefore, hafter⟩ := hmeets
  unfold overlap
  omega

end Interval

namespace Report

variable {i : Interval} {w : Window} {now : Moment}

/-- Of aware times the order of the instants decides how clipping ends. -/
theorem clip_of_aware (hstart : w.start.isAware = true) (hstop : w.stop.isAware = true)
    (hstarted : i.started.isAware = true) (hended : (i.effectiveEnd now).isAware = true) :
    clip i w now =
      if (i.effectiveEnd now).instant < i.started.instant then
        .error (endsBeforeStart i (i.effectiveEnd now))
      else if i.Meets w now then
        if i.overlap w now < 0 then .error (negativeLength i) else .ok (some (i.overlap w now))
      else .ok none := by
  obtain ⟨last, hlast, hlastAware, hlastInstant⟩ := Moment.earliest_of_aware hended hstop
  obtain ⟨first, hfirst, hfirstAware, hfirstInstant⟩ := Moment.latest_of_aware hstarted hstart
  have hlength : overlapLength i (i.effectiveEnd now) w = .ok (i.overlap w now) := by
    simp only [overlapLength, hlast, hfirst]
    rw [Interval.overlap, ← hlastInstant, ← hfirstInstant]
    exact Moment.since_of_aware hlastAware hfirstAware
  have hoverlaps : w.overlaps i.started (i.effectiveEnd now) = .ok (decide (i.Meets w now)) := by
    simp only [Window.overlaps, Moment.before_of_aware hstarted hstop,
      Moment.before_of_aware hstart hended, Interval.Meets]
    by_cases hlt : i.started.instant < w.stop.instant
    · simp [hlt, Bind.bind, Except.bind]
    · simp [hlt, Bind.bind, Except.bind, pure, Except.pure]
  simp only [clip, Moment.before_of_aware hended hstarted, hoverlaps, hlength, ofClock,
    Except.mapError, Bind.bind, Except.bind, decide_eq_true_eq]

/-- An interval that meets the window is clipped to its share. -/
theorem clip_eq (hw : w.Sane) (hi : i.Sane now) :
    clip i w now = .ok (if i.Meets w now then some (i.share w now : Int) else none) := by
  rw [clip_of_aware hw.start hw.stop hi.started hi.ended, if_neg (not_lt.mpr hi.ordered)]
  by_cases hmeets : i.Meets w now
  · have hnonneg : ¬ i.overlap w now < 0 := by
      rw [Interval.overlap_neg_iff hi.ordered hmeets]
      exact not_lt.mpr hw.ordered
    have hshare : (i.share w now : Int) = i.overlap w now := by
      rw [Interval.share_eq]
      exact Int.toNat_of_nonneg (not_lt.mp hnonneg)
    rw [if_pos hmeets, if_neg hnonneg, if_pos hmeets, hshare]
  · rw [if_neg hmeets, if_neg hmeets]

/-- The time of a task in a list of intervals. -/
def spent (task : Ident) (is : List Interval) (w : Window) (now : Moment) : Nat :=
  ((is.filter (·.task = task)).map (·.share w now)).sum

theorem spent_append (task : Ident) (xs ys : List Interval) (w : Window) (now : Moment) :
    spent task (xs ++ ys) w now = spent task xs w now + spent task ys w now := by
  simp only [spent, List.filter_append, List.map_append, List.sum_append]

theorem spent_single (task : Ident) (i : Interval) (w : Window) (now : Moment) :
    spent task [i] w now = if i.task = task then i.share w now else 0 := by
  by_cases htask : i.task = task <;> simp [spent, htask]

variable {rows : List TaskTime} {task : Ident} {is : List Interval}

/-- Rows that tell the times of the tasks in a list of intervals. -/
structure Tallies (rows : List TaskTime) (is : List Interval) (w : Window) (now : Moment) : Prop where
  nodup : (rows.map (·.task)).Nodup
  earned : ∀ r ∈ rows, ∃ i ∈ is, i.task = r.task ∧ i.Meets w now
  micros : ∀ r ∈ rows, r.micros = spent r.task is w now
  complete : ∀ i ∈ is, i.Meets w now → ∃ r ∈ rows, r.task = i.task

/-- The parts of intervals in order are the shares of those that meet the window. -/
def shares (is : List Interval) (w : Window) (now : Moment) : List TaskTime :=
  (is.filter (·.Meets w now)).map fun i => ⟨i.task, i.share w now⟩

theorem mem_shares {p : TaskTime} :
    p ∈ shares is w now ↔ ∃ i ∈ is, i.Meets w now ∧ ⟨i.task, i.share w now⟩ = p := by
  simp [shares, and_assoc]

theorem parts_eq (hw : w.Sane) (hsane : ∀ i ∈ is, i.Sane now) :
    parts w now is = .ok (shares is w now) := by
  induction is with
  | nil => rfl
  | cons i is ih =>
    have hclip := clip_eq hw (hsane i List.mem_cons_self)
    have hlater := ih fun j hj => hsane j (List.mem_cons_of_mem _ hj)
    rw [parts_cons_eq_ok_iff]
    refine ⟨_, _, hclip, hlater, ?_⟩
    by_cases hmeets : i.Meets w now <;> simp [shares, hmeets]

/-- Intervals that do not meet the window have no share. -/
theorem total_shares (task : Ident) (is : List Interval) (w : Window) (now : Moment) :
    total task (shares is w now) = spent task is w now := by
  induction is with
  | nil => rfl
  | cons i is ih =>
    have hspent : spent task (i :: is) w now = spent task [i] w now + spent task is w now :=
      spent_append task [i] is w now
    rw [hspent, Nat.cast_add, ← ih, spent_single]
    by_cases hmeets : i.Meets w now
    · have hshares : shares (i :: is) w now = [⟨i.task, i.share w now⟩] ++ shares is w now := by
        simp [shares, hmeets]
      rw [hshares, total_append, total_single]
      split <;> rfl
    · have hshares : shares (i :: is) w now = shares is w now := by simp [shares, hmeets]
      rw [hshares, Interval.share_of_not_meets hmeets, ite_self, Nat.cast_zero, Int.zero_add]

/-- To tell the times of tasks is to tell the totals of the shares. -/
theorem tallies_iff_adds : Tallies rows is w now ↔ Adds rows (shares is w now) := by
  constructor
  · intro h
    refine ⟨h.nodup, fun r hr => ?_, fun r hr => ?_, fun p hp => ?_⟩
    · obtain ⟨i, hi, htask, hmeets⟩ := h.earned r hr
      exact ⟨_, mem_shares.mpr ⟨i, hi, hmeets, rfl⟩, htask⟩
    · rw [h.micros r hr, total_shares]
    · obtain ⟨i, hi, hmeets, rfl⟩ := mem_shares.mp hp
      exact h.complete i hi hmeets
  · intro h
    refine ⟨h.nodup, fun r hr => ?_, fun r hr => ?_, fun i hi hmeets => ?_⟩
    · obtain ⟨p, hp, htask⟩ := h.earned r hr
      obtain ⟨i, hi, hmeets, rfl⟩ := mem_shares.mp hp
      exact ⟨i, hi, htask, hmeets⟩
    · rw [h.micros r hr, total_shares]
    · exact h.complete _ (mem_shares.mpr ⟨i, hi, hmeets, rfl⟩)

theorem Tallies.ints (h : Tallies rows is w now) (hints : ∀ i ∈ is, ∃ n : Int, i.task = .int n) :
    ∀ r ∈ rows, ∃ n : Int, r.task = .int n := by
  intro r hr
  obtain ⟨i, hi, hir, _⟩ := h.earned r hr
  exact hir ▸ hints i hi

/-- The time of a task in rows of a report; a task without a row has none. -/
def timeOf (task : Ident) (rows : List TaskTime) : Int :=
  (rows.find? (·.task = task)).elim 0 (·.micros)

theorem Tallies.timeOf_eq (h : Tallies rows is w now) (task : Ident) :
    timeOf task rows = spent task is w now := by
  unfold timeOf
  cases hfind : rows.find? (·.task = task) with
  | none =>
    have hnew : ∀ r ∈ rows, r.task ≠ task := by simpa using hfind
    rw [← total_shares, (tallies_iff_adds.mp h).total_eq_zero hnew]
    rfl
  | some r =>
    have htask : r.task = task := by simpa using List.find?_some hfind
    rw [Option.elim_some, h.micros r (List.mem_of_find?_eq_some hfind), htask]

/-- A report over intervals in order tells the times of the tasks, or one of them is too long. -/
theorem aggregate_cases (hw : w.Sane) (hsane : ∀ i ∈ is, i.Sane now)
    (hints : ∀ i ∈ is, ∃ n : Int, i.task = .int n) :
    (∃ rows, aggregate is w now = .ok rows ∧ Tallies rows is w now) ∨
      ∃ e task, aggregate is w now = .error (.tooLong e) ∧
        Duration.greatest < spent task is w now := by
  obtain ⟨rows, hrows, hadds⟩ | ⟨e, task, hrows, hlong⟩ := aggregate_of_parts hints (parts_eq hw hsane)
  · exact .inl ⟨rows, hrows, tallies_iff_adds.mpr hadds⟩
  · rw [total_shares] at hlong
    exact .inr ⟨e, task, hrows, hlong⟩

/-- Reports that tell the same times are the same. -/
theorem Tallies.eq_of_pairwise {rows' : List TaskTime} (h : Tallies rows is w now)
    (h' : Tallies rows' is w now) (hints : ∀ i ∈ is, ∃ n : Int, i.task = .int n)
    (hrows : rows.Pairwise fun a b => precedes a b = true)
    (hrows' : rows'.Pairwise fun a b => precedes a b = true) : rows = rows' :=
  Report.eq_of_pairwise (h.ints hints)
    ((tallies_iff_adds.mp h).perm_of_adds (tallies_iff_adds.mp h')) hrows hrows'

end Report
end Worklog
