import Worklog.Proofs.Report.Order
import Worklog.Proofs.Report.Worked
import Worklog.Proofs.Schedule.System

namespace Worklog

namespace Report

variable {rows : List Row} {is : List Interval} {w : Window} {now : Moment}

/-- Intervals that tell the times of others, in whatever way, are reported as those are. -/
theorem aggregate_eq_of_tallies {all : List Interval} {totals : List TaskTime} (hw : w.Sane)
    (hsane : ∀ i ∈ is, i.Sane now) (hints : ∀ i ∈ is, ∃ n : Int, i.task = .int n)
    (hshort : ∀ task, (spent task is w now : Int) ≤ Duration.greatest)
    (hall : ∀ found, Tallies found is w now → Tallies found all w now)
    (htallies : Tallies totals all w now) (hallInts : ∀ i ∈ all, ∃ n : Int, i.task = .int n)
    (hordered : totals.Pairwise fun a b => precedes a b = true) :
    aggregate is w now = .ok totals := by
  obtain ⟨found, hfound, hfoundTallies⟩ | ⟨e, task, _, hlong⟩ := aggregate_cases hw hsane hints
  · have hfoundOrdered := pairwise_of_aggregate hfound (hfoundTallies.ints hints)
    rw [hfound, (hall found hfoundTallies).eq_of_pairwise htallies hallInts hfoundOrdered hordered]
  · exact absurd (hshort task) (not_le.mpr hlong)

/-- What a user's rows must be like to be reported as of `now`: the tasks are integers and open rows have
    started. -/
structure Ripe (user : Int) (rows : List Row) (now : Moment) : Prop where
  task : ∀ r ∈ rows, r.user = .int user → ∃ n : Int, r.task = .int n
  started : ∀ r ∈ rows, r.user = .int user → r.stopped = none →
    now.isAware = true ∧ (r.started.micros : Int) ≤ now.instant

namespace Ripe

variable {user : Int}

theorem ints (h : Ripe user rows now) : ∀ i ∈ ofUser user rows, ∃ n : Int, i.task = .int n := by
  intro i hi
  obtain ⟨r, hr, hmine, rfl⟩ := mem_ofUser.mp hi
  exact h.task r hr hmine

theorem sane (h : Ripe user rows now) (hfine : Consistent rows) :
    ∀ i ∈ ofUser user rows, i.Sane now := by
  intro i hi
  obtain ⟨r, hr, hmine, rfl⟩ := mem_ofUser.mp hi
  exact Row.sane_interval (h.started r hr hmine) (hfine.in_order r hr)

end Ripe

/-- A task has no more time than its intervals could have. -/
theorem spent_le (task : Ident) (is : List Interval) (w : Window) (now : Moment) :
    spent task is w now ≤ is.length * w.span.card := by
  induction is with
  | nil => simp [spent]
  | cons i is ih =>
    have hshare : i.share w now ≤ w.span.card := Finset.card_le_card Finset.inter_subset_right
    have hfirst : (if i.task = task then i.share w now else 0) ≤ w.span.card := by
      split
      · exact hshare
      · exact Nat.zero_le _
    rw [spent_cons, List.length_cons, Nat.succ_mul, Nat.add_comm]
    exact Nat.add_le_add ih hfirst

variable {user : Int} {start stop : Moment}

/-- On a consistent table a report between storable bounds in order, as of a time at which the open rows of
    its user have started, is the one over all intervals of its user, taken in any order, if no task has
    more time than a duration holds. Whatever else is stored for other users, it stays the same. -/
theorem run_eq_aggregate {db : Database} (h : db.Ready rows) (huser : Integer.fits64 user = true)
    (hstart : start.Storable) (hstop : stop.Storable) (hlt : start.instant < stop.instant)
    (hripe : Ripe user rows now)
    (hshort : ∀ task,
      (spent task (ofUser user rows) ⟨start, stop⟩ now : Int) ≤ Duration.greatest) :
    ∃ totals,
      (∀ is, is.Perm (ofUser user rows) → aggregate is ⟨start, stop⟩ now = .ok totals) ∧
      (run Database.intervals now (some (.int user)) start stop db).1 = .ok totals ∧
      ∀ (other : Database) (rows' : List Row), other.Ready rows' →
        (ofUser user rows').Perm (ofUser user rows) →
        (run Database.intervals now (some (.int user)) start stop other).1 = .ok totals := by
  have hw : Window.Sane ⟨start, stop⟩ := ⟨hstart.1, hstop.1, hlt.le⟩
  have hsane := hripe.sane h.consistent
  obtain ⟨totals, htotals, htallies⟩ | ⟨e, task, _, hlong⟩ := aggregate_cases hw hsane hripe.ints
  swap
  · exact absurd (hshort task) (not_le.mpr hlong)
  have hordered := pairwise_of_aggregate htotals (htallies.ints hripe.ints)
  have hreport : ∀ (other : Database) (rows' : List Row), other.Ready rows' →
      (ofUser user rows').Perm (ofUser user rows) →
      (run Database.intervals now (some (.int user)) start stop other).1 = .ok totals := by
    intro other rows' hother hperm
    obtain ⟨is, db', hrun, _, hmine, hall, hspent⟩ := run_reads hother huser hstart hstop hlt now
    have hmem : ∀ i ∈ is, i ∈ ofUser user rows := fun i hi => hperm.mem_iff.mp (hmine i hi)
    rw [hrun]
    refine aggregate_eq_of_tallies hw (fun i hi => hsane i (hmem i hi))
      (fun i hi => hripe.ints i (hmem i hi)) (fun task => ?_)
      (fun found hfound => (hall found hfound).of_perm hperm) htallies hripe.ints hordered
    rw [hspent, spent, ((hperm.filter _).map _).sum_eq]
    exact hshort task
  refine ⟨totals, fun is hperm => ?_, hreport db rows h (.refl _), hreport⟩
  refine aggregate_eq_of_tallies hw (fun i hi => hsane i (hperm.mem_iff.mp hi))
    (fun i hi => hripe.ints i (hperm.mem_iff.mp hi)) (fun task => ?_)
    (fun found hfound => hfound.of_perm hperm) htallies hripe.ints hordered
  rw [spent, ((hperm.filter _).map _).sum_eq]
  exact hshort task

/-- Intervals of one key that overlap, one without a length, one that ends where the window of
    microseconds 3 to 6 starts, one that starts where it stops, an open one, and one of another user. -/
def crowded : List Row :=
  [⟨.ofNat 0xa1, .int 1, .int 7, beat 1, some (beat 5)⟩,
    ⟨.ofNat 0xa2, .int 1, .int 7, beat 3, some (beat 8)⟩,
    ⟨.ofNat 0xa3, .int 1, .int 7, beat 4, some (beat 4)⟩,
    ⟨.ofNat 0xa4, .int 1, .int 3, beat 0, some (beat 3)⟩,
    ⟨.ofNat 0xa5, .int 1, .int 3, beat 6, some (beat 7)⟩,
    ⟨.ofNat 0xa6, .int 1, .int 2, beat 2, none⟩,
    ⟨.ofNat 0xa7, .int 2, .int 7, beat 0, some (beat 9)⟩]

/-- The open interval counts up to now, and the other user does not count at all. -/
theorem crowded_report :
    aggregate (ofUser 1 crowded) ⟨tick 3, tick 6⟩ (tick 5) = .ok [⟨.int 7, 5⟩, ⟨.int 2, 2⟩] ∧
    (run Database.intervals (tick 5) (some (.int 1)) (tick 3) (tick 6)
      { ledger := { rows := some crowded } }).1 = .ok [⟨.int 7, 5⟩, ⟨.int 2, 2⟩] ∧
    (run Database.intervals (tick 5) (some (.int 1)) (tick 3) (tick 6)
      { ledger := { rows := some (crowded.take 6).reverse } }).1 =
        .ok [⟨.int 7, 5⟩, ⟨.int 2, 2⟩] := by
  have hready : Database.Ready { ledger := { rows := some crowded } } crowded :=
    ⟨fun _ _ => rfl, rfl, rfl, ⟨by decide, by decide, by decide⟩⟩
  have hother : Database.Ready { ledger := { rows := some (crowded.take 6).reverse } }
      (crowded.take 6).reverse := ⟨fun _ _ => rfl, rfl, rfl, ⟨by decide, by decide, by decide⟩⟩
  have hripe : Ripe 1 crowded (tick 5) := by
    refine ⟨fun r hr _ => ?_, by decide⟩
    simp only [crowded, List.mem_cons, List.not_mem_nil, or_false] at hr
    rcases hr with rfl | rfl | rfl | rfl | rfl | rfl | rfl <;> exact ⟨_, rfl⟩
  have hlong : ((ofUser 1 crowded).length * (Window.span ⟨tick 3, tick 6⟩).card : Int) ≤
      Duration.greatest := by decide
  have hshort : ∀ task, (spent task (ofUser 1 crowded) ⟨tick 3, tick 6⟩ (tick 5) : Int) ≤
      Duration.greatest := fun task =>
    (Int.ofNat_le.mpr (spent_le task (ofUser 1 crowded) ⟨tick 3, tick 6⟩ (tick 5))).trans hlong
  obtain ⟨totals, hall, hrun, hindependent⟩ := run_eq_aggregate hready (by decide) (by decide)
    (by decide) (by decide) hripe hshort
  have htotals : aggregate (ofUser 1 crowded) ⟨tick 3, tick 6⟩ (tick 5) =
      .ok [⟨.int 7, 5⟩, ⟨.int 2, 2⟩] := rfl
  obtain rfl := Except.ok.inj ((hall _ (.refl _)).symm.trans htotals)
  exact ⟨htotals, hrun, hindependent _ _ hother (by decide)⟩

end Report
end Worklog
