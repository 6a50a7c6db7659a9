import Worklog.Proofs.Report.Laws

namespace Worklog

/-- The failure without its details, the texts of the values that it is about. -/
def Failure.withoutDetails (f : Failure) : Failure :=
  { f with context := { f.context with debug := none } }

/-- The fault without the details of a failure. -/
def Fault.withoutDetails : Fault → Fault
  | failure f => failure f.withoutDetails
  | fault => fault

namespace Moment

theorem same_iff {a b : Moment} :
    a.same b = true ↔ a.isAware = b.isAware ∧ a.instant = b.instant := by
  rw [same, sameKind, Bool.and_eq_true, beq_iff_eq, beq_iff_eq]

end Moment

namespace Interval

variable {i j : Interval} {w : Window} {now now' : Moment}

theorem not_meets_iff : ¬ i.Meets w now ↔
    w.stop.instant ≤ i.started.instant ∨ (i.effectiveEnd now).instant ≤ w.start.instant := by
  rw [Meets, not_and_or, not_lt, not_lt]

/-- The part of an interval is no longer than the window. -/
theorem overlap_le_window (i : Interval) (w : Window) (now : Moment) :
    i.overlap w now ≤ w.stop.instant - w.start.instant := by
  unfold overlap
  omega

/-- The part of an interval is no longer than the interval. -/
theorem overlap_le_length (i : Interval) (w : Window) (now : Moment) :
    i.overlap w now ≤ (i.effectiveEnd now).instant - i.started.instant := by
  unfold overlap
  omega

/-- Where an interval in order meets a window, no time is left just when one of the two has no length. -/
theorem overlap_eq_zero_iff (hordered : i.started.instant ≤ (i.effectiveEnd now).instant)
    (hmeets : i.Meets w now) : i.overlap w now = 0 ↔
      w.start.instant = w.stop.instant ∨ i.started.instant = (i.effectiveEnd now).instant := by
  obtain ⟨hbefore, hafter⟩ := hmeets
  unfold overlap
  omega

/-- One piece of work with its times at the same instants, whatever their offsets are. -/
structure AtSameInstants (i j : Interval) : Prop where
  id : i.id = j.id
  user : i.user = j.user
  task : i.task = j.task
  started : i.started.same j.started = true
  stopped : Option.Rel (fun a b => a.same b = true) i.stopped j.stopped

theorem AtSameInstants.ended (h : i.AtSameInstants j) (hnow : now.same now' = true) :
    (i.effectiveEnd now).same (j.effectiveEnd now') = true := by
  cases i
  cases j
  cases h.stopped with
  | none => exact hnow
  | some hsame => exact hsame

end Interval

/-- A checked window has bounds that are aware and in order. -/
theorem Window.sane_of_check {first last : Moment} {w : Window} (h : check first last = .ok w) : w.Sane := by
  obtain ⟨hcheck, hsane⟩ | ⟨_, hcheck, _⟩ := check_cases first last
  · cases hcheck.symm.trans h
    exact hsane
  · cases hcheck.symm.trans h

namespace Report

variable {i j : Interval} {w w' : Window} {now now' : Moment}

/-- Between aware bounds an interval with a naive time has no part: its times cannot be compared, unless both are
    naive and out of order. -/
theorem clip_of_naive (hstop : w.stop.isAware = true)
    (hnaive : ¬ (i.started.isAware = true ∧ (i.effectiveEnd now).isAware = true)) :
    clip i w now = .error (.clock .mixed) ∨
      clip i w now = .error (endsBeforeStart i (i.effectiveEnd now)) := by
  by_cases hkind : (i.effectiveEnd now).isAware = i.started.isAware
  · have hstarted : i.started.isAware ≠ w.stop.isAware := by
      rw [hstop]
      exact fun hstarted => hnaive ⟨hstarted, hkind.trans hstarted⟩
    have hbefore := Moment.before_of_sameKind hkind
    by_cases hearly : (i.effectiveEnd now).instant < i.started.instant
    · rw [decide_eq_true hearly] at hbefore
      right
      simp only [clip, hbefore]
      rfl
    · rw [decide_eq_false hearly] at hbefore
      left
      simp only [clip, hbefore, Window.overlaps, Moment.before_of_mixed hstarted]
      rfl
  · left
    simp only [clip, Moment.before_of_mixed hkind]
    rfl

/-- Over a window in order no length is negative, whatever the times of the interval are. -/
theorem clip_ne_negativeLength (hw : w.Sane) (i : Interval) (now : Moment) (id : Uuid) (context : Context) :
    clip i w now ≠ .error (.failure ⟨.violation (.negativeLength id), context⟩) := by
  intro h
  by_cases haware : i.started.isAware = true ∧ (i.effectiveEnd now).isAware = true
  · obtain ⟨hstarted, hended⟩ := haware
    rw [clip_of_aware hw.start hw.stop hstarted hended] at h
    split at h
    · cases h
    · next hordered =>
      split at h
      · next hmeets =>
        rw [if_neg ((Interval.overlap_neg_iff (not_lt.mp hordered) hmeets).not.mpr
          (not_lt.mpr hw.ordered))] at h
        cases h
      · cases h
  · obtain hclip | hclip := clip_of_naive hw.stop haware
    · cases hclip.symm.trans h
    · cases hclip.symm.trans h

section

variable (hi : i.Aware) (hstart : w.start.isAware = true) (hstop : w.stop.isAware = true)
  (hnow : now.isAware = true)

include hi hstart hstop hnow

theorem clip_eq_endsBeforeStart_iff : clip i w now = .error (endsBeforeStart i (i.effectiveEnd now)) ↔
    (i.effectiveEnd now).instant < i.started.instant := by
  rw [clip_of_aware hstart hstop hi.started (hi.ended hnow)]
  by_cases hearly : (i.effectiveEnd now).instant < i.started.instant
  · rw [if_pos hearly]
    exact iff_of_true rfl hearly
  · rw [if_neg hearly]
    refine iff_of_false ?_ hearly
    split
    · split
      · nofun
      · nofun
    · nofun

theorem clip_eq_none_iff (hordered : i.started.instant ≤ (i.effectiveEnd now).instant) :
    clip i w now = .ok none ↔ ¬ i.Meets w now := by
  rw [clip_of_aware hstart hstop hi.started (hi.ended hnow), if_neg (not_lt.mpr hordered)]
  by_cases hmeets : i.Meets w now
  · rw [if_pos hmeets]
    refine iff_of_false ?_ (not_not.mpr hmeets)
    split
    · nofun
    · nofun
  · rw [if_neg hmeets]
    exact iff_of_true rfl hmeets

/-- Where an interval in order meets a window, the order of the window's bounds decides. -/
theorem clip_of_meets (hordered : i.started.instant ≤ (i.effectiveEnd now).instant)
    (hmeets : i.Meets w now) : clip i w now =
      if w.stop.instant < w.start.instant then .error (negativeLength i)
      else .ok (some (i.overlap w now)) := by
  rw [clip_of_aware hstart hstop hi.started (hi.ended hnow), if_neg (not_lt.mpr hordered), if_pos hmeets]
  simp only [Interval.overlap_neg_iff hordered hmeets]

theorem clip_eq_negativeLength_iff (hordered : i.started.instant ≤ (i.effectiveEnd now).instant)
    (hmeets : i.Meets w now) :
    clip i w now = .error (negativeLength i) ↔ w.stop.instant < w.start.instant := by
  rw [clip_of_meets hi hstart hstop hnow hordered hmeets]
  by_cases hinverted : w.stop.instant < w.start.instant
  · rw [if_pos hinverted]
    exact iff_of_true rfl hinverted
  · rw [if_neg hinverted]
    exact iff_of_false nofun hinverted

/-- Where an interval and a window, both in order, meet, the part is their overlap: it fits into both, and
    takes no time just when one of them has no length. -/
theorem clip_eq_overlap (hordered : i.started.instant ≤ (i.effectiveEnd now).instant)
    (hmeets : i.Meets w now) (hw : w.start.instant ≤ w.stop.instant) :
    clip i w now = .ok (some (i.overlap w now)) ∧ 0 ≤ i.overlap w now ∧
      i.overlap w now ≤ w.stop.instant - w.start.instant ∧
      i.overlap w now ≤ (i.effectiveEnd now).instant - i.started.instant ∧
      (i.overlap w now = 0 ↔
        w.start.instant = w.stop.instant ∨ i.started.instant = (i.effectiveEnd now).instant) := by
  have hnonneg : 0 ≤ i.overlap w now :=
    not_lt.mp ((Interval.overlap_neg_iff hordered hmeets).not.mpr (not_lt.mpr hw))
  refine ⟨?_, hnonneg, i.overlap_le_window w now, i.overlap_le_length w now,
    Interval.overlap_eq_zero_iff hordered hmeets⟩
  rw [clip_of_meets hi hstart hstop hnow hordered hmeets, if_neg (not_lt.mpr hw)]

/-- Clipping sees of aware times their instants only; their offsets are seen in the details of a violation. -/
theorem clip_of_sameInstants (hsame : i.AtSameInstants j) (hstartSame : w.start.same w'.start = true)
    (hstopSame : w.stop.same w'.stop = true) (hnowSame : now.same now' = true) :
    (clip i w now).mapError Fault.withoutDetails = (clip j w' now').mapError Fault.withoutDetails := by
  obtain ⟨hstartKind, hstartInstant⟩ := Moment.same_iff.mp hstartSame
  obtain ⟨hstopKind, hstopInstant⟩ := Moment.same_iff.mp hstopSame
  obtain ⟨hstartedKind, hstartedInstant⟩ := Moment.same_iff.mp hsame.started
  obtain ⟨hendedKind, hendedInstant⟩ := Moment.same_iff.mp (hsame.ended hnowSame)
  have hended := hi.ended hnow
  rw [clip_of_aware hstart hstop hi.started hended, clip_of_aware (hstartKind ▸ hstart) (hstopKind ▸ hstop)
    (hstartedKind ▸ hi.started) (hendedKind ▸ hended)]
  have hmeets : i.Meets w now ↔ j.Meets w' now' := by
    rw [Interval.Meets, Interval.Meets, hstartInstant, hstopInstant, hstartedInstant, hendedInstant]
  have hoverlap : i.overlap w now = j.overlap w' now' := by
    rw [Interval.overlap, Interval.overlap, hstartInstant, hstopInstant, hstartedInstant, hendedInstant]
  simp only [hmeets, hoverlap, hstartedInstant, hendedInstant]
  split
  · simp only [Except.mapError, Fault.withoutDetails, Failure.withoutDetails, endsBeforeStart,
      violationContext, hsame.id, hsame.user, hsame.task]
  · split
    · split
      · simp only [Except.mapError, Fault.withoutDetails, Failure.withoutDetails, negativeLength,
          violationContext, hsame.id, hsame.user, hsame.task]
      · rfl
    · rfl

end

/-- All that clipping can come to, for aware times and any window. Just the intervals that end before they start
    are reported as such. Of the others those have no part that start once the window has stopped or end before it
    starts, and the rest has a negative length if the window is inverted and else a time that fits into the
    window and into the interval, zero just when one of them has no length. No checked window has negative
    lengths, whatever the interval and the present are. Times at the same instants are clipped alike: other
    offsets show only in the details of a violation, which tell two of the times as they are. -/
theorem clip_cases (hi : i.Aware) (hstart : w.start.isAware = true) (hstop : w.stop.isAware = true)
    (hnow : now.isAware = true) :
    (clip i w now = .error (endsBeforeStart i (i.effectiveEnd now)) ↔
      (i.effectiveEnd now).instant < i.started.instant) ∧
    (i.started.instant ≤ (i.effectiveEnd now).instant →
      (clip i w now = .ok none ↔
        w.stop.instant ≤ i.started.instant ∨ (i.effectiveEnd now).instant ≤ w.start.instant) ∧
      (i.Meets w now →
        (clip i w now = .error (negativeLength i) ↔ w.stop.instant < w.start.instant) ∧
        (w.start.instant ≤ w.stop.instant → ∃ micros, clip i w now = .ok (some micros) ∧
          0 ≤ micros ∧ micros ≤ w.stop.instant - w.start.instant ∧
          micros ≤ (i.effectiveEnd now).instant - i.started.instant ∧
          (micros = 0 ↔
            w.start.instant = w.stop.instant ∨ i.started.instant = (i.effectiveEnd now).instant)))) ∧
    (∀ first last, Window.check first last = .ok w → ∀ other present id context,
      clip other w present ≠ .error (.failure ⟨.violation (.negativeLength id), context⟩)) ∧
    (∀ j w' now', i.AtSameInstants j → w.start.same w'.start = true → w.stop.same w'.stop = true →
      now.same now' = true →
      (clip i w now).mapError Fault.withoutDetails = (clip j w' now').mapError Fault.withoutDetails) := by
  refine ⟨clip_eq_endsBeforeStart_iff hi hstart hstop hnow, fun hordered => ⟨?_, fun hmeets => ⟨?_, ?_⟩⟩, ?_, ?_⟩
  · rw [clip_eq_none_iff hi hstart hstop hnow hordered, Interval.not_meets_iff]
  · exact clip_eq_negativeLength_iff hi hstart hstop hnow hordered hmeets
  · intro hw
    exact ⟨_, clip_eq_overlap hi hstart hstop hnow hordered hmeets hw⟩
  · intro first last hcheck
    exact clip_ne_negativeLength (Window.sane_of_check hcheck)
  · intro j w' now' hsame hstartSame hstopSame hnowSame
    exact clip_of_sameInstants hi hstart hstop hnow hsame hstartSame hstopSame hnowSame

/-- An open interval with the present in three places, and a window that is also turned around. Read on a clock two
    hours east it is clipped to the same time, and refused for the same reason. -/
theorem turned_window_negative :
    let abroad : Offset := ⟨120 * minuteMicros, by decide⟩
    let i : Interval := ⟨.ofNat 0xa1, .int 1, .int 7, tick 2, none⟩
    let j : Interval := { i with started := ⟨120 * minuteMicros + 2, some abroad, by decide⟩ }
    clip i ⟨tick 6, tick 4⟩ (tick 8) = .error (negativeLength i) ∧
    (∃ micros, clip i ⟨tick 4, tick 6⟩ (tick 8) = .ok (some micros) ∧
      clip j ⟨tick 4, tick 6⟩ (tick 8) = .ok (some micros) ∧ 0 ≤ micros ∧ micros ≤ 2 ∧ micros ≠ 0) ∧
    clip i ⟨tick 4, tick 6⟩ (tick 4) = .ok none ∧
    clip i ⟨tick 4, tick 6⟩ (tick 1) = .error (endsBeforeStart i (tick 1)) ∧
    (clip i ⟨tick 4, tick 6⟩ (tick 1)).mapError Fault.withoutDetails =
      (clip j ⟨tick 4, tick 6⟩ (tick 1)).mapError Fault.withoutDetails ∧
    Window.check (tick 4) (tick 6) = .ok ⟨tick 4, tick 6⟩ ∧
    clip i ⟨tick 4, tick 6⟩ (tick 8) ≠ .error (negativeLength i) := by
  intro abroad i j
  have hi : i.Aware := ⟨rfl, by simp [i]⟩
  have hsame : i.AtSameInstants j := ⟨rfl, rfl, rfl, by decide, .none⟩
  have hcheck : Window.check (tick 4) (tick 6) = .ok ⟨tick 4, tick 6⟩ := rfl
  have hturned : clip i ⟨tick 6, tick 4⟩ (tick 8) = .error (negativeLength i) :=
    (((clip_cases hi rfl rfl rfl).2.1 (by decide)).2 (by decide)).1.mpr (by decide)
  obtain ⟨_, hordered, hpossible, halike⟩ :=
    @clip_cases i ⟨tick 4, tick 6⟩ (tick 8) hi rfl rfl rfl
  obtain ⟨_, hmeets⟩ := hordered (by decide)
  obtain ⟨micros, hclip, hnonneg, hwindow, _, hzero⟩ := (hmeets (by decide)).2 (by decide)
  have habroad := halike j ⟨tick 4, tick 6⟩ (tick 8) hsame (by decide) (by decide) (by decide)
  rw [hclip] at habroad
  obtain ⟨hearly, _, _, halikeEarly⟩ :=
    @clip_cases i ⟨tick 4, tick 6⟩ (tick 1) hi rfl rfl rfl
  refine ⟨hturned, ⟨micros, hclip, except_mapError_eq_ok_iff.mp habroad.symm, hnonneg, hwindow,
    hzero.not.mpr (by decide)⟩, ?_, hearly.mpr (by decide), ?_, hcheck, ?_⟩
  · exact ((clip_cases hi rfl rfl rfl).2.1 (by decide)).1.mpr (by decide)
  · exact halikeEarly j _ _ hsame (by decide) (by decide) (by decide)
  · exact hpossible _ _ hcheck i (tick 8) _ _

end Report
end Worklog
