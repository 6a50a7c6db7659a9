import Worklog.Proofs.Report.Selection

namespace Worklog

namespace Moment

/-- The offset of a moment carries it less than a day out of the calendar. -/
theorem instant_bounds (m : Moment) :
    -(dayMicros : Int) < m.instant ∧ m.instant < calendarMicros + dayMicros := by
  have hwall := m.wall_lt
  have hoffset : -(dayMicros : Int) < m.offsetMicros ∧ m.offsetMicros < dayMicros := by
    unfold offsetMicros
    split
    · next o _ => exact o.within_day
    · decide
  unfold instant
  omega

end Moment

/-- The greatest length of time between two moments. -/
def longestMicros : Nat := calendarMicros + 2 * dayMicros

theorem Window.card_span_le (w : Window) : w.span.card ≤ longestMicros := by
  have hstart := w.start.instant_bounds
  have hstop := w.stop.instant_bounds
  rw [span, Moment.card_upTo, longestMicros]
  omega

namespace Duration

/-- Above the greatest duration with a negative there is none for the negative. -/
theorem checked_neg_of_long {micros : Int} (h : greatest < micros) : ∃ e, checked (-micros) = .error e := by
  obtain hchecked | hlong := checked_cases (-micros)
  · obtain ⟨⟨hlow, _⟩, _⟩ := checked_eq_ok_iff.mp hchecked
    omega
  · exact hlong

end Duration

namespace Report

variable {is : List Interval} {w : Window} {now : Moment} {rows : List TaskTime} {task : Ident}

theorem checkNegations_of_long {row : TaskTime} (hrow : row ∈ rows)
    (hlong : Duration.greatest < row.micros) : ∃ e, checkNegations rows = .error e := by
  cases hnegations : checkNegations rows with
  | ok _ => exact absurd (le_of_checkNegations hnegations row hrow) (not_le.mpr hlong)
  | error e => exact ⟨e, rfl⟩

/-- Over intervals in order the times of the tasks are added up, or one of them is no duration. -/
theorem totals_cases (hw : w.Sane) (hsane : ∀ i ∈ is, i.Sane now)
    (hints : ∀ i ∈ is, ∃ n : Int, i.task = .int n) :
    (∃ rows, totals w now [] is = .ok rows ∧ Tallies rows is w now ∧
        ∀ task, (spent task is w now : Int) < Duration.limit) ∨
      ∃ e task, totals w now [] is = .error (.tooLong e) ∧ Duration.limit ≤ spent task is w now := by
  simp only [← total_shares]
  obtain ⟨rows, htotals, hadds, hfit⟩ | hlong := totals_of_parts hints (parts_eq hw hsane)
  · exact .inl ⟨rows, htotals, tallies_iff_adds.mpr hadds, hfit⟩
  · exact .inr hlong

/-- A task has no more time than its own intervals could have. -/
theorem spent_le_count (task : Ident) (is : List Interval) (w : Window) (now : Moment) :
    spent task is w now ≤ is.countP (·.task = task) * longestMicros := by
  have hown : spent task is w now = spent task (is.filter (·.task = task)) w now := by
    simp only [spent, List.filter_filter, Bool.and_self]
  rw [hown, List.countP_eq_length_filter]
  exact (spent_le task _ w now).trans (Nat.mul_le_mul_left _ w.card_span_le)

/-- A report is given while no task has more time than the greatest duration with a negative. -/
theorem given_iff_short (hw : w.Sane) (hsane : ∀ i ∈ is, i.Sane now)
    (hints : ∀ i ∈ is, ∃ n : Int, i.task = .int n) :
    (∃ rows, aggregate is w now = .ok rows) ↔
      ∀ task, (spent task is w now : Int) ≤ Duration.greatest := by
  constructor
  · rintro ⟨rows, hrows⟩ task
    obtain ⟨ps, hparts, _, _, hshort⟩ := parts_of_aggregate hrows hints
    obtain rfl := Except.ok.inj ((parts_eq hw hsane).symm.trans hparts)
    rw [← total_shares]
    exact hshort task
  · intro hshort
    obtain ⟨rows, hrows, _⟩ | ⟨_, task, _, hlong⟩ := aggregate_cases hw hsane hints
    · exact ⟨rows, hrows⟩
    · exact absurd (hshort task) (not_le.mpr hlong)

/-- The times of the tasks are added up while they are durations. -/
theorem added_iff_fit (hw : w.Sane) (hsane : ∀ i ∈ is, i.Sane now)
    (hints : ∀ i ∈ is, ∃ n : Int, i.task = .int n) :
    (∃ rows, totals w now [] is = .ok rows) ↔
      ∀ task, (spent task is w now : Int) < Duration.limit := by
  obtain ⟨rows, hrows, _, hfit⟩ | ⟨e, task, hfailed, hlong⟩ := totals_cases hw hsane hints
  · exact ⟨fun _ => hfit, fun _ => ⟨rows, hrows⟩⟩
  · constructor
    · rintro ⟨rows, hrows⟩
      cases hrows.symm.trans hfailed
    · intro hfit
      exact absurd (hfit task) (not_lt.mpr hlong)

/-- What can be too long about a report over intervals in order. It fails exactly if a task has more time than
    the greatest duration with a negative, and is given otherwise. The sums alone fail only for a task whose
    time is no duration at all; where they are made and one is nevertheless too long, its negative is what
    cannot be made. Of tasks with up to 273 intervals no time is too long. -/
theorem aggregate_tooLong_iff (hw : w.Sane) (hsane : ∀ i ∈ is, i.Sane now)
    (hints : ∀ i ∈ is, ∃ n : Int, i.task = .int n) :
    ((∃ e, aggregate is w now = .error (.tooLong e)) ↔
      ∃ task, Duration.greatest < spent task is w now) ∧
    ((∃ rows, aggregate is w now = .ok rows) ↔
      ∀ task, (spent task is w now : Int) ≤ Duration.greatest) ∧
    ((∃ rows, totals w now [] is = .ok rows) ↔
      ∀ task, (spent task is w now : Int) < Duration.limit) ∧
    (∀ rows, totals w now [] is = .ok rows → Tallies rows is w now ∧
      ∀ row ∈ rows, Duration.greatest < row.micros →
        Duration.checked row.micros = .ok row.micros ∧
        (∃ e, Duration.checked (-row.micros) = .error e) ∧
        ∃ e, checkNegations rows = .error e ∧ aggregate is w now = .error (.tooLong e)) ∧
    ((∀ task, is.countP (·.task = task) ≤ 273) → ∃ rows, aggregate is w now = .ok rows) := by
  have hgiven := given_iff_short hw hsane hints
  have hadded := added_iff_fit hw hsane hints
  refine ⟨⟨?_, ?_⟩, hgiven, hadded, ?_, ?_⟩
  · rintro ⟨e, hfailed⟩
    by_contra hnone
    obtain ⟨rows, hrows⟩ := hgiven.mpr fun task => not_lt.mp fun hlong => hnone ⟨task, hlong⟩
    cases hrows.symm.trans hfailed
  · rintro ⟨task, hlong⟩
    obtain ⟨rows, hrows, _⟩ | ⟨e, _, hfailed, _⟩ := aggregate_cases hw hsane hints
    · exact absurd (hgiven.mp ⟨rows, hrows⟩ task) (not_le.mpr hlong)
    · exact ⟨e, hfailed⟩
  · intro rows hrows
    obtain ⟨_, hagain, htallies, hfit⟩ | ⟨e, _, hfailed, _⟩ := totals_cases hw hsane hints
    · obtain rfl := Except.ok.inj (hrows.symm.trans hagain)
      refine ⟨htallies, fun row hrow hlong => ?_⟩
      have hmicros := htallies.micros row hrow
      have hlow : -Duration.greatest ≤ row.micros := by
        have hgreatest : -Duration.greatest ≤ 0 := by decide
        omega
      have hhigh : row.micros < Duration.limit := hmicros ▸ hfit row.task
      obtain ⟨e, hnegations⟩ := checkNegations_of_long hrow hlong
      refine ⟨Duration.checked_eq_ok_iff.mpr ⟨⟨hlow, hhigh⟩, rfl⟩, Duration.checked_neg_of_long hlong, e,
        hnegations, ?_⟩
      simp only [aggregate, hrows, hnegations, Bind.bind, Except.bind, Except.mapError]
    · cases hrows.symm.trans hfailed
  · intro hfew
    refine hgiven.mpr fun task => ?_
    have hmany : 273 * longestMicros ≤ Duration.greatest := by decide
    have hspent := (spent_le_count task is w now).trans (Nat.mul_le_mul_right _ (hfew task))
    omega

theorem spent_replicate (task : Ident) (n : Nat) (i : Interval) (w : Window) (now : Moment) :
    spent task (List.replicate n i) w now = n * spent task [i] w now := by
  induction n with
  | zero => simp [spent]
  | succ n ih =>
    have hfirst : List.replicate (n + 1) i = [i] ++ List.replicate n i := rfl
    rw [hfirst, spent_append, ih, Nat.succ_mul, Nat.add_comm]

theorem last_lt_calendarMicros : calendarMicros - 1 < calendarMicros := by decide

/-- The whole calendar, up to its last microsecond. -/
def wholeCalendar : Window := ⟨tick 0, ⟨calendarMicros - 1, some .utc, last_lt_calendarMicros⟩⟩

/-- An interval from the first moment of the calendar to another one. -/
def fromStart (ended : Moment) : Interval := ⟨.ofNat 0xa1, .int 1, .int 7, tick 0, some ended⟩

/-- Intervals over the whole calendar, and one to a moment. -/
def brimful (n : Nat) (ended : Moment) : List Interval :=
  List.replicate n (fromStart wholeCalendar.stop) ++ [fromStart ended]

theorem mem_brimful {n : Nat} {ended : Moment} {i : Interval} (h : i ∈ brimful n ended) :
    i = fromStart wholeCalendar.stop ∨ i = fromStart ended := by
  obtain hi | hi := List.mem_append.mp h
  · exact .inl (List.eq_of_mem_replicate hi)
  · exact .inr (List.mem_singleton.mp hi)

theorem spent_brimful (n : Nat) (ended : Moment) {micros : Nat} (hinstant : ended.instant = micros)
    (hmicros : micros < calendarMicros) (task : Ident) :
    spent task (brimful n ended) wholeCalendar (tick 0) =
      if task = .int 7 then n * (calendarMicros - 1) + micros else 0 := by
  have hshare : ∀ (m : Moment) (k : Nat), m.instant = k → k < calendarMicros →
      (fromStart m).share wholeCalendar (tick 0) = k := by
    intro m k hk hlt
    have hended : ((fromStart m).effectiveEnd (tick 0)).instant = k := hk
    have hstart : (fromStart m).started.instant = 0 := rfl
    have hfirst : wholeCalendar.start.instant = 0 := rfl
    have hlast : wholeCalendar.stop.instant = (calendarMicros - 1 : Nat) := rfl
    rw [Interval.share_eq, hended, hstart, hfirst, hlast]
    omega
  have htask : ∀ m, (fromStart m).task = .int 7 := fun _ => rfl
  rw [brimful, spent_append, spent_replicate, spent_single, spent_single, hshare _ _ hinstant hmicros,
    hshare wholeCalendar.stop (calendarMicros - 1) rfl (by decide), htask, htask]
  by_cases hseven : task = .int 7
  · rw [if_pos hseven, if_pos hseven.symm, if_pos hseven.symm]
  · rw [if_neg hseven, if_neg (Ne.symm hseven), if_neg (Ne.symm hseven), Nat.mul_zero]

/-- Filled up to the greatest duration with a negative, the time of a task can be told, and one microsecond
    more can be added up but not told. As many intervals over the whole calendar as can be told are 273. -/
theorem brimful_too_long :
    let full : Moment := ⟨2987892 * dayMicros + 273, some .utc, by decide⟩
    let fuller : Moment := ⟨2987892 * dayMicros + 274, some .utc, by decide⟩
    (∃ rows, aggregate (brimful 273 full) wholeCalendar (tick 0) = .ok rows) ∧
    (∃ rows, totals wholeCalendar (tick 0) [] (brimful 273 fuller) = .ok rows) ∧
    (∃ e, aggregate (brimful 273 fuller) wholeCalendar (tick 0) = .error (.tooLong e)) ∧
    (∃ rows, aggregate (brimful 272 wholeCalendar.stop) wholeCalendar (tick 0) = .ok rows) ∧
    ∃ e, aggregate (brimful 273 wholeCalendar.stop) wholeCalendar (tick 0) = .error (.tooLong e) := by
  intro full fuller
  have hw : wholeCalendar.Sane := ⟨rfl, rfl, by decide⟩
  have hints : ∀ n ended, ∀ i ∈ brimful n ended, ∃ k : Int, i.task = .int k := by
    intro n ended i hi
    obtain rfl | rfl := mem_brimful hi
    · exact ⟨7, rfl⟩
    · exact ⟨7, rfl⟩
  have hsane : ∀ n ended, ended.isAware = true → 0 ≤ ended.instant →
      ∀ i ∈ brimful n ended, i.Sane (tick 0) := by
    intro n ended haware hlate i hi
    obtain rfl | rfl := mem_brimful hi
    · exact ⟨rfl, rfl, by decide⟩
    · exact ⟨rfl, haware, hlate⟩
  obtain ⟨_, hfull, _⟩ := aggregate_tooLong_iff hw (hsane 273 full rfl (by decide)) (hints 273 full)
  obtain ⟨hfuller, _, hfullerTotals, _⟩ :=
    aggregate_tooLong_iff hw (hsane 273 fuller rfl (by decide)) (hints 273 fuller)
  obtain ⟨_, _, _, _, hfew⟩ :=
    aggregate_tooLong_iff hw (hsane 272 wholeCalendar.stop rfl (by decide)) (hints 272 _)
  obtain ⟨hmany, _⟩ := aggregate_tooLong_iff hw (hsane 273 wholeCalendar.stop rfl (by decide)) (hints 273 _)
  refine ⟨hfull.mpr fun task => ?_, hfullerTotals.mpr fun task => ?_, hfuller.mpr ⟨.int 7, ?_⟩,
    hfew fun task => ?_, hmany.mpr ⟨.int 7, ?_⟩⟩
  · rw [spent_brimful 273 full rfl (by decide)]
    split <;> decide
  · rw [spent_brimful 273 fuller rfl (by decide)]
    split <;> decide
  · rw [spent_brimful 273 fuller rfl (by decide)]
    decide
  · have hlength : (brimful 272 wholeCalendar.stop).length = 273 := by
      rw [brimful, List.length_append, List.length_replicate, List.length_singleton]
    exact hlength ▸ List.countP_le_length
  · rw [spent_brimful 273 wholeCalendar.stop rfl (by decide)]
    decide

end Report
end Worklog
