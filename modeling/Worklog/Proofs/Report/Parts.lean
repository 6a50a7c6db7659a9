import Mathlib.Algebra.Order.BigOperators.Group.List
import Mathlib.Data.Int.Interval
import Mathlib.Data.List.Nodup
import Worklog.Proofs.Report.Order
import Worklog.Proofs.Run

namespace Worklog

namespace Duration

/-- The greatest duration whose negative is a duration. -/
def greatest : Int := maxDays * dayMicros

/-- The least length of time that is too long for a duration. From the greatest duration up to here there
    are durations whose negatives are none. -/
def limit : Int := (maxDays + 1) * dayMicros

theorem checked_eq_ok_iff {micros m : Int} :
    checked micros = .ok m ↔ (-greatest ≤ micros ∧ micros < limit) ∧ micros = m := by
  have hday : (0 : Int) < dayMicros := by decide
  have hlow : -maxDays ≤ days micros ↔ -greatest ≤ micros := by
    rw [days, Int.le_ediv_iff_mul_le hday, Int.neg_mul]
    rfl
  have hhigh : days micros ≤ maxDays ↔ micros < limit := by
    rw [← Int.lt_add_one_iff, days, Int.ediv_lt_iff_lt_mul hday]
    rfl
  rw [← hlow, ← hhigh, checked]
  split
  · next hfits => simp [hfits]
  · next hlong => simp [hlong]

theorem checked_of_le {micros : Int} (hlow : -greatest ≤ micros) (hhigh : micros ≤ greatest) :
    checked micros = .ok micros := by
  have hgreatest : greatest < limit := by decide
  exact checked_eq_ok_iff.mpr ⟨⟨hlow, hhigh.trans_lt hgreatest⟩, rfl⟩

theorem checked_cases (micros : Int) :
    checked micros = .ok micros ∨ ∃ e, checked micros = .error e := by
  unfold checked
  split
  · exact .inl rfl
  · exact .inr ⟨_, rfl⟩

theorem checked_map {α : Type} (micros : Int) (f : Int → α) :
    (checked micros).map f = (checked micros).map fun _ => f micros := by
  obtain hchecked | ⟨e, hchecked⟩ := checked_cases micros
  · rw [hchecked]
    rfl
  · rw [hchecked]
    rfl

end Duration

namespace Report

variable {i : Interval} {is js before after : List Interval} {w : Window} {now : Moment}
  {rows rows' done ps qs : List TaskTime} {task : Ident} {micros : Int}

/-- No part is negative: a negative length is reported as a violation. -/
theorem clip_nonneg (h : clip i w now = .ok (some micros)) : 0 ≤ micros := by
  simp only [clip, except_bind_eq_ok_iff] at h
  obtain ⟨early, _, h⟩ := h
  split at h
  · cases h
  · rw [except_bind_eq_ok_iff] at h
    obtain ⟨meets, _, h⟩ := h
    split at h
    · rw [except_bind_eq_ok_iff] at h
      obtain ⟨length, _, h⟩ := h
      split at h
      · cases h
      · next hnonneg =>
        cases h
        exact not_lt.mp hnonneg
    · cases h

/-- The parts of intervals inside a window, each under its task, unless an interval has a fault. -/
def parts (w : Window) (now : Moment) : List Interval → Except Fault (List TaskTime)
  | [] => .ok []
  | i :: rest => do
    let part ← clip i w now
    let later ← parts w now rest
    return (part.map (TaskTime.mk i.task)).toList ++ later

theorem parts_cons_eq_ok_iff : parts w now (i :: is) = .ok ps ↔
    ∃ part later, clip i w now = .ok part ∧ parts w now is = .ok later ∧
      ps = (part.map (TaskTime.mk i.task)).toList ++ later := by
  simp only [parts, except_bind_eq_ok_iff]
  constructor
  · rintro ⟨part, hclip, later, hlater, h⟩
    cases h
    exact ⟨part, later, hclip, hlater, rfl⟩
  · rintro ⟨part, later, hclip, hlater, rfl⟩
    exact ⟨part, hclip, later, hlater, rfl⟩

theorem mem_parts (h : parts w now is = .ok ps) {p : TaskTime} :
    p ∈ ps ↔ ∃ i ∈ is, i.task = p.task ∧ clip i w now = .ok (some p.micros) := by
  induction is generalizing ps with
  | nil =>
    cases h
    simp
  | cons i is ih =>
    obtain ⟨part, later, hclip, hlater, rfl⟩ := parts_cons_eq_ok_iff.mp h
    rw [List.mem_append, ih hlater, List.exists_mem_cons_iff, hclip]
    refine or_congr_left ?_
    cases part with
    | none => simp
    | some micros =>
      obtain ⟨task, micros'⟩ := p
      simp [eq_comm]

/-- Intervals in another order have the same parts in another order. -/
theorem parts_perm (hperm : is.Perm js) (h : parts w now is = .ok ps) :
    ∃ qs, parts w now js = .ok qs ∧ ps.Perm qs := by
  induction hperm generalizing ps with
  | nil => exact ⟨ps, h, .refl ps⟩
  | cons i _ ih =>
    obtain ⟨part, later, hclip, hlater, rfl⟩ := parts_cons_eq_ok_iff.mp h
    obtain ⟨qs, hqs, hsame⟩ := ih hlater
    exact ⟨_, parts_cons_eq_ok_iff.mpr ⟨part, qs, hclip, hqs, rfl⟩, hsame.append_left _⟩
  | swap i j is =>
    obtain ⟨second, _, hj, hrest, rfl⟩ := parts_cons_eq_ok_iff.mp h
    obtain ⟨first, later, hi, hlater, rfl⟩ := parts_cons_eq_ok_iff.mp hrest
    have hswapped := parts_cons_eq_ok_iff.mpr ⟨second, later, hj, hlater, rfl⟩
    exact ⟨_, parts_cons_eq_ok_iff.mpr ⟨first, _, hi, hswapped, rfl⟩, List.perm_append_comm_assoc ..⟩
  | trans _ _ ih ih' =>
    obtain ⟨qs, hqs, hsame⟩ := ih h
    obtain ⟨rs, hrs, hsame'⟩ := ih' hqs
    exact ⟨rs, hrs, hsame.trans hsame'⟩

/-- The total of a task among parts. -/
def total (task : Ident) (ps : List TaskTime) : Int :=
  ((ps.filter (·.task = task)).map (·.micros)).sum

theorem total_append (task : Ident) (ps qs : List TaskTime) :
    total task (ps ++ qs) = total task ps + total task qs := by
  simp only [total, List.filter_append, List.map_append, List.sum_append]

theorem total_single (task : Ident) (p : TaskTime) :
    total task [p] = if p.task = task then p.micros else 0 := by
  by_cases htask : p.task = task <;> simp [total, htask]

theorem total_nil_lt (task : Ident) : total task [] < Duration.limit := by
  have hpositive : 0 < Duration.limit := by decide
  exact hpositive

theorem total_perm (task : Ident) (h : ps.Perm qs) : total task ps = total task qs :=
  ((h.filter _).map _).sum_eq

theorem total_nonneg (task : Ident) (h : ∀ p ∈ ps, 0 ≤ p.micros) : 0 ≤ total task ps := by
  refine List.sum_nonneg fun micros hmicros => ?_
  obtain ⟨p, hp, rfl⟩ := List.mem_map.mp hmicros
  exact h p (List.mem_filter.mp hp).1

/-- Rows that tell the totals of parts: one for each task that has a part. -/
structure Adds (rows ps : List TaskTime) : Prop where
  nodup : (rows.map (·.task)).Nodup
  earned : ∀ r ∈ rows, ∃ p ∈ ps, p.task = r.task
  micros : ∀ r ∈ rows, r.micros = total r.task ps
  complete : ∀ p ∈ ps, ∃ r ∈ rows, r.task = p.task

theorem adds_nil : Adds [] [] := ⟨.nil, by simp, by simp, by simp⟩

namespace Adds

variable {p : TaskTime}

theorem perm (h : Adds rows ps) (hperm : rows'.Perm rows) : Adds rows' ps where
  nodup := (hperm.map _).nodup_iff.mpr h.nodup
  earned := fun r hr => h.earned r (hperm.mem_iff.mp hr)
  micros := fun r hr => h.micros r (hperm.mem_iff.mp hr)
  complete := by
    intro p hp
    obtain ⟨r, hr, htask⟩ := h.complete p hp
    exact ⟨r, hperm.mem_iff.mpr hr, htask⟩

theorem of_perm (h : Adds rows ps) (hperm : ps.Perm qs) : Adds rows qs where
  nodup := h.nodup
  earned := by
    intro r hr
    obtain ⟨p, hp, htask⟩ := h.earned r hr
    exact ⟨p, hperm.mem_iff.mp hp, htask⟩
  micros := fun r hr => (h.micros r hr).trans (total_perm r.task hperm)
  complete := fun p hp => h.complete p (hperm.mem_iff.mpr hp)

theorem ints (h : Adds rows ps) (hints : ∀ p ∈ ps, ∃ n : Int, p.task = .int n) :
    ∀ r ∈ rows, ∃ n : Int, r.task = .int n := by
  intro r hr
  obtain ⟨p, hp, htask⟩ := h.earned r hr
  exact htask ▸ hints p hp

/-- A task without a row has no part. -/
theorem total_eq_zero (h : Adds rows ps) (hnew : ∀ r ∈ rows, r.task ≠ task) : total task ps = 0 := by
  have hnone : ps.filter (·.task = task) = [] := by
    rw [List.filter_eq_nil_iff]
    intro p hp htask
    obtain ⟨r, hr, hsame⟩ := h.complete p hp
    exact hnew r hr (hsame.trans (of_decide_eq_true htask))
  rw [total, hnone]
  rfl

/-- Rows that tell the same totals have the same members. -/
theorem perm_of_adds (h : Adds rows ps) (h' : Adds rows' ps) : rows.Perm rows' := by
  have hsub : ∀ {xs ys : List TaskTime}, Adds xs ps → Adds ys ps → ∀ r ∈ xs, r ∈ ys := by
    intro xs ys hxs hys r hr
    obtain ⟨p, hp, htask⟩ := hxs.earned r hr
    obtain ⟨r', hr', htask'⟩ := hys.complete p hp
    have hsame : r'.task = r.task := htask'.trans htask
    have hmicros : r'.micros = r.micros := by rw [hxs.micros r hr, hys.micros r' hr', hsame]
    have hrow : r' = r := by
      cases r
      cases r'
      simp_all
    exact hrow ▸ hr'
  rw [List.perm_ext_iff_of_nodup h.nodup.of_map h'.nodup.of_map]
  exact fun r => ⟨hsub h h' r, hsub h' h r⟩

private theorem total_other {r : TaskTime} (hr : r.task ≠ p.task) :
    total r.task (done ++ [p]) = total r.task done := by
  rw [total_append, total_single, if_neg (Ne.symm hr), Int.add_zero]

/-- The first part of a task brings a row. -/
theorem add (h : Adds rows done) (hnew : ∀ r ∈ rows, r.task ≠ p.task) :
    Adds (rows ++ [⟨p.task, total p.task (done ++ [p])⟩]) (done ++ [p]) where
  nodup := by
    rw [List.map_append, List.map_singleton, List.nodup_append]
    refine ⟨h.nodup, List.nodup_singleton _, ?_⟩
    intro task htask task' htask'
    obtain ⟨r, hr, rfl⟩ := List.mem_map.mp htask
    rw [List.mem_singleton.mp htask']
    exact hnew r hr
  earned := by
    intro r hr
    obtain hr | hr := List.mem_append.mp hr
    · obtain ⟨q, hq, htask⟩ := h.earned r hr
      exact ⟨q, List.mem_append_left _ hq, htask⟩
    · obtain rfl := List.mem_singleton.mp hr
      exact ⟨p, by simp, rfl⟩
  micros := by
    intro r hr
    obtain hr | hr := List.mem_append.mp hr
    · rw [h.micros r hr, total_other (hnew r hr)]
    · obtain rfl := List.mem_singleton.mp hr
      rfl
  complete := by
    intro q hq
    obtain hq | hq := List.mem_append.mp hq
    · obtain ⟨r, hr, htask⟩ := h.complete q hq
      exact ⟨r, List.mem_append_left _ hr, htask⟩
    · obtain rfl := List.mem_singleton.mp hq
      exact ⟨_, List.mem_append_right _ List.mem_cons_self, rfl⟩

/-- A later part of a task adds to its row. -/
theorem raise (h : Adds rows done) {row : TaskTime} (hrow : row ∈ rows) (hrowTask : row.task = p.task) :
    Adds (rows.map fun r => if r.task = p.task then ⟨r.task, total p.task (done ++ [p])⟩ else r)
      (done ++ [p]) := by
  have htask : ∀ r : TaskTime, (if r.task = p.task then
      (⟨r.task, total p.task (done ++ [p])⟩ : TaskTime) else r).task = r.task := by
    intro r
    split <;> rfl
  refine ⟨?_, ?_, ?_, ?_⟩
  · rw [List.map_map, show ((·.task) ∘ fun r : TaskTime => if r.task = p.task then
      (⟨r.task, total p.task (done ++ [p])⟩ : TaskTime) else r) = (·.task) from funext htask]
    exact h.nodup
  · intro r' hr'
    obtain ⟨r, hr, rfl⟩ := List.mem_map.mp hr'
    obtain ⟨q, hq, hqTask⟩ := h.earned r hr
    rw [htask]
    exact ⟨q, List.mem_append_left _ hq, hqTask⟩
  · intro r' hr'
    obtain ⟨r, hr, rfl⟩ := List.mem_map.mp hr'
    rw [htask]
    split
    · next hsame => rw [hsame]
    · next hother => rw [h.micros r hr, total_other hother]
  · intro q hq
    obtain hq | hq := List.mem_append.mp hq
    · obtain ⟨r, hr, hrTask⟩ := h.complete q hq
      exact ⟨_, List.mem_map_of_mem hr, (htask r).trans hrTask⟩
    · obtain rfl := List.mem_singleton.mp hq
      exact ⟨_, List.mem_map_of_mem hrow, (htask row).trans hrowTask⟩

end Adds

/-- Integers name the same task when they are equal. -/
theorem same_iff_of_int {a b : Ident} (ha : ∃ n : Int, a = .int n) (hb : ∃ n : Int, b = .int n) :
    a.same b = true ↔ a = b := by
  obtain ⟨m, rfl⟩ := ha
  obtain ⟨n, rfl⟩ := hb
  simp [Ident.same_int]

/-- A task without a row gets one at the end. -/
theorem credit_of_not_mem (hrows : ∀ r ∈ rows, ∃ n : Int, r.task = .int n)
    (htask : ∃ n : Int, task = .int n) (hnew : ∀ r ∈ rows, r.task ≠ task) :
    credit task micros rows =
      (Duration.checked micros).map fun sum => rows ++ [⟨task, sum⟩] := by
  induction rows with
  | nil => rfl
  | cons row rows ih =>
    have hsame : ¬ row.task.same task = true := by
      rw [same_iff_of_int (hrows row List.mem_cons_self) htask]
      exact hnew row List.mem_cons_self
    rw [credit, if_neg hsame, ih (fun r hr => hrows r (List.mem_cons_of_mem _ hr))
      fun r hr => hnew r (List.mem_cons_of_mem _ hr)]
    cases Duration.checked micros <;> rfl

/-- A task with a row gets more time in its place. -/
theorem credit_of_mem (hrows : ∀ r ∈ rows, ∃ n : Int, r.task = .int n)
    (htask : ∃ n : Int, task = .int n) (hnodup : (rows.map (·.task)).Nodup) {row : TaskTime}
    (hrow : row ∈ rows) (hrowTask : row.task = task) :
    credit task micros rows =
      (Duration.checked (row.micros + micros)).map fun sum =>
        rows.map fun r => if r.task = task then ⟨r.task, sum⟩ else r := by
  induction rows with
  | nil => cases hrow
  | cons first rows ih =>
    rw [List.map_cons, List.nodup_cons] at hnodup
    have hsame := same_iff_of_int (hrows first List.mem_cons_self) htask
    by_cases hfirst : first.task = task
    · have hothers : ∀ r ∈ rows, r.task ≠ task := fun r hr hr' =>
        hnodup.1 (hfirst ▸ hr' ▸ List.mem_map_of_mem hr)
      have hunchanged : ∀ sum : Int,
          (rows.map fun r => if r.task = task then ⟨r.task, sum⟩ else r) = rows := fun sum =>
        (List.map_congr_left fun r hr => if_neg (hothers r hr)).trans (List.map_id' _)
      obtain rfl | hrow := List.mem_cons.mp hrow
      · rw [credit, if_pos (hsame.mpr hfirst)]
        simp only [List.map_cons, if_pos hfirst, hunchanged]
      · exact absurd hrowTask (hothers row hrow)
    · obtain rfl | hrow := List.mem_cons.mp hrow
      · exact absurd hrowTask hfirst
      · rw [credit, if_neg fun h => hfirst (hsame.mp h),
          ih (fun r hr => hrows r (List.mem_cons_of_mem _ hr)) hnodup.2 hrow]
        simp only [List.map_cons, if_neg hfirst]
        cases Duration.checked (row.micros + micros) <;> rfl

/-- A part is credited to its task, if a duration can hold the running total. -/
theorem Adds.credit {p : TaskTime} (h : Adds rows done)
    (hints : ∀ q ∈ done ++ [p], ∃ n : Int, q.task = .int n) :
    ∃ rows', Adds rows' (done ++ [p]) ∧ Report.credit p.task p.micros rows =
      (Duration.checked (total p.task (done ++ [p]))).map fun _ => rows' := by
  have hrowInts := h.ints fun q hq => hints q (List.mem_append_left _ hq)
  have hint := hints p (by simp)
  have htotal : total p.task (done ++ [p]) = total p.task done + p.micros := by
    rw [total_append, total_single, if_pos rfl]
  by_cases hrow : ∃ r ∈ rows, r.task = p.task
  · obtain ⟨row, hrow, hrowTask⟩ := hrow
    refine ⟨_, h.raise hrow hrowTask, ?_⟩
    have hmicros : row.micros + p.micros = total p.task (done ++ [p]) := by
      rw [h.micros row hrow, hrowTask, htotal]
    rw [credit_of_mem hrowInts hint h.nodup hrow hrowTask, hmicros, Duration.checked_map]
  · have hnew : ∀ r ∈ rows, r.task ≠ p.task := fun r hr htask => hrow ⟨r, hr, htask⟩
    refine ⟨_, h.add hnew, ?_⟩
    have hmicros : p.micros = total p.task (done ++ [p]) := by
      rw [htotal, h.total_eq_zero hnew, Int.zero_add]
    rw [credit_of_not_mem hrowInts hint hnew, hmicros, Duration.checked_map, ← hmicros]

/-- Rows after parts, one part after the other. -/
def addUp (rows ps : List TaskTime) : Except TooLong (List TaskTime) :=
  ps.foldlM (fun rows p => credit p.task p.micros rows) rows

/-- The loop over intervals without a fault adds up their parts. -/
theorem totals_append (hparts : parts w now before = .ok ps) (rows : List TaskTime)
    (after : List Interval) :
    totals w now rows (before ++ after) =
      (addUp rows ps).mapError Fault.tooLong >>= fun rows => totals w now rows after := by
  induction before generalizing rows ps with
  | nil =>
    cases hparts
    rfl
  | cons i before ih =>
    obtain ⟨part, later, hclip, hlater, rfl⟩ := parts_cons_eq_ok_iff.mp hparts
    rw [List.cons_append, totals, hclip]
    cases part with
    | none => exact ih hlater rows
    | some micros =>
      change ((credit i.task micros rows).mapError Fault.tooLong >>=
        fun rows => totals w now rows (before ++ after)) = _
      change _ = (credit i.task micros rows >>= fun rows => addUp rows later).mapError Fault.tooLong >>= _
      cases credit i.task micros rows with
      | error e => rfl
      | ok rows => exact ih hlater rows

/-- The loop comes to its end only over intervals without a fault. -/
theorem parts_of_totals (h : totals w now rows is = .ok rows') : ∃ ps, parts w now is = .ok ps := by
  induction is generalizing rows with
  | nil => exact ⟨[], rfl⟩
  | cons i is ih =>
    rw [totals, except_bind_eq_ok_iff] at h
    obtain ⟨part, hclip, h⟩ := h
    cases part with
    | none =>
      obtain ⟨later, hlater⟩ := ih h
      exact ⟨_, parts_cons_eq_ok_iff.mpr ⟨_, later, hclip, hlater, rfl⟩⟩
    | some micros =>
      obtain ⟨raised, _, h⟩ := except_bind_eq_ok_iff.mp h
      obtain ⟨later, hlater⟩ := ih h
      exact ⟨_, parts_cons_eq_ok_iff.mpr ⟨_, later, hclip, hlater, rfl⟩⟩

/-- Parts are added up to their totals, unless a running total is too long. Totals only grow, so that one
    is too long in the end as well. -/
theorem Adds.addUp (h : Adds rows done) (hfit : ∀ task, total task done < Duration.limit)
    (hnonneg : ∀ p ∈ done ++ ps, 0 ≤ p.micros) (hints : ∀ p ∈ done ++ ps, ∃ n : Int, p.task = .int n) :
    (∃ rows', Report.addUp rows ps = .ok rows' ∧ Adds rows' (done ++ ps) ∧
        ∀ task, total task (done ++ ps) < Duration.limit) ∨
      ∃ e task, Report.addUp rows ps = .error e ∧ Duration.limit ≤ total task (done ++ ps) := by
  induction ps generalizing rows done with
  | nil =>
    rw [List.append_nil]
    exact .inl ⟨rows, rfl, h, hfit⟩
  | cons p ps ih =>
    have hassoc : done ++ p :: ps = (done ++ [p]) ++ ps := by simp
    rw [hassoc] at hnonneg hints ⊢
    obtain ⟨raised, hraised, hcredit⟩ := h.credit fun q hq => hints q (List.mem_append_left _ hq)
    have hstep : Report.addUp rows (p :: ps) =
        Report.credit p.task p.micros rows >>= fun rows => Report.addUp rows ps := List.foldlM_cons ..
    rw [hstep, hcredit]
    obtain hchecked | ⟨e, hchecked⟩ := Duration.checked_cases (total p.task (done ++ [p]))
    · have hgrown : ∀ task, total task (done ++ [p]) < Duration.limit := by
        intro task
        by_cases htask : p.task = task
        · exact htask ▸ (Duration.checked_eq_ok_iff.mp hchecked).1.2
        · rw [total_append, total_single, if_neg htask, Int.add_zero]
          exact hfit task
      rw [hchecked]
      exact ih hraised hgrown hnonneg hints
    · rw [hchecked]
      refine .inr ⟨e, p.task, rfl, ?_⟩
      have hbefore := total_nonneg p.task fun q hq => hnonneg q (List.mem_append_left _ hq)
      have hlater := total_nonneg p.task fun q hq => hnonneg q (List.mem_append_right _ hq)
      have hlong : Duration.limit ≤ total p.task (done ++ [p]) := by
        by_contra hlt
        have hpositive : (0 : Int) ≤ Duration.greatest := by decide
        have hfits : Duration.checked (total p.task (done ++ [p])) = .ok _ :=
          Duration.checked_eq_ok_iff.mpr ⟨⟨by omega, not_le.mp hlt⟩, rfl⟩
        cases hfits.symm.trans hchecked
      rw [total_append]
      omega

theorem checkNegations_of_le (h : ∀ r ∈ rows, 0 ≤ r.micros ∧ r.micros ≤ Duration.greatest) :
    checkNegations rows = .ok () := by
  induction rows with
  | nil => rfl
  | cons r rows ih =>
    obtain ⟨hlow, hhigh⟩ := h r List.mem_cons_self
    have hchecked : Duration.checked (-r.micros) = .ok (-r.micros) :=
      Duration.checked_of_le (by omega) (by omega)
    rw [checkNegations, hchecked]
    exact ih fun r' hr' => h r' (List.mem_cons_of_mem _ hr')

theorem le_of_checkNegations (h : checkNegations rows = .ok ()) :
    ∀ r ∈ rows, r.micros ≤ Duration.greatest := by
  induction rows with
  | nil => exact fun r hr => nomatch hr
  | cons row rows ih =>
    obtain ⟨_, hchecked, hrest⟩ := except_bind_eq_ok_iff.mp h
    intro r hr
    obtain rfl | hr := List.mem_cons.mp hr
    · obtain ⟨⟨hlow, _⟩, _⟩ := Duration.checked_eq_ok_iff.mp hchecked
      omega
    · exact ih hrest r hr

theorem ints_of_parts (hints : ∀ i ∈ is, ∃ n : Int, i.task = .int n) (h : parts w now is = .ok ps) :
    ∀ p ∈ ps, ∃ n : Int, p.task = .int n := by
  intro p hp
  obtain ⟨i, hi, htask, _⟩ := (mem_parts h).mp hp
  exact htask ▸ hints i hi

theorem nonneg_of_parts (h : parts w now is = .ok ps) : ∀ p ∈ ps, 0 ≤ p.micros := by
  intro p hp
  obtain ⟨_, _, _, hclip⟩ := (mem_parts h).mp hp
  exact clip_nonneg hclip

/-- Over intervals without a fault the loop tells the totals of their parts, or comes upon one that is too
    long. -/
theorem totals_of_parts (hints : ∀ i ∈ is, ∃ n : Int, i.task = .int n) (h : parts w now is = .ok ps) :
    (∃ rows, totals w now [] is = .ok rows ∧ Adds rows ps ∧ ∀ task, total task ps < Duration.limit) ∨
      ∃ e task, totals w now [] is = .error (.tooLong e) ∧ Duration.limit ≤ total task ps := by
  have htotals := totals_append h [] []
  rw [List.append_nil] at htotals
  rw [htotals]
  obtain ⟨rows, hrows, hadds, hfit⟩ | ⟨e, task, hrows, hlong⟩ :=
    adds_nil.addUp total_nil_lt (nonneg_of_parts h) (ints_of_parts hints h)
  · rw [hrows]
    exact .inl ⟨rows, rfl, hadds, hfit⟩
  · rw [hrows]
    exact .inr ⟨e, task, rfl, hlong⟩

/-- A report over intervals without a fault tells the totals of their parts, or one of these is too long. -/
theorem aggregate_of_parts (hints : ∀ i ∈ is, ∃ n : Int, i.task = .int n)
    (h : parts w now is = .ok ps) :
    (∃ rows, aggregate is w now = .ok rows ∧ Adds rows ps) ∨
      ∃ e task, aggregate is w now = .error (.tooLong e) ∧ Duration.greatest < total task ps := by
  obtain ⟨rows, htotals, hadds, _⟩ | ⟨e, task, htotals, hlong⟩ := totals_of_parts hints h
  · cases hnegations : checkNegations rows with
    | ok _ =>
      refine .inl ⟨order rows, ?_, hadds.perm (order_perm rows)⟩
      simp only [aggregate, htotals, hnegations, Bind.bind, Except.bind, Except.mapError]
      rfl
    | error e =>
      obtain ⟨r, hr, hlong⟩ : ∃ r ∈ rows, Duration.greatest < r.micros := by
        by_contra hnone
        have hfine : checkNegations rows = .ok () := checkNegations_of_le fun r hr =>
          ⟨by rw [hadds.micros r hr]; exact total_nonneg _ (nonneg_of_parts h),
            not_lt.mp fun hlt => hnone ⟨r, hr, hlt⟩⟩
        cases hfine.symm.trans hnegations
      rw [hadds.micros r hr] at hlong
      refine .inr ⟨e, r.task, ?_, hlong⟩
      simp only [aggregate, htotals, hnegations, Bind.bind, Except.bind, Except.mapError]
  · have hgreatest : Duration.greatest < Duration.limit := by decide
    refine .inr ⟨e, task, ?_, hgreatest.trans_le hlong⟩
    simp only [aggregate, htotals, Bind.bind, Except.bind]

/-- The rows of a report come in the order of reports. -/
theorem pairwise_of_aggregate (h : aggregate is w now = .ok rows)
    (hrows : ∀ r ∈ rows, ∃ n : Int, r.task = .int n) :
    rows.Pairwise fun a b => precedes a b = true := by
  simp only [aggregate, except_bind_eq_ok_iff] at h
  obtain ⟨unordered, _, _, _, h⟩ := h
  cases h
  exact pairwise_order fun r hr => hrows r ((order_perm unordered).mem_iff.mpr hr)

/-- A report that is given is about intervals without a fault, and its rows are in order. -/
theorem parts_of_aggregate (h : aggregate is w now = .ok rows)
    (hints : ∀ i ∈ is, ∃ n : Int, i.task = .int n) :
    ∃ ps, parts w now is = .ok ps ∧ Adds rows ps ∧ (rows.Pairwise fun a b => precedes a b = true) ∧
      ∀ task, total task ps ≤ Duration.greatest := by
  have haggregate := h
  simp only [aggregate, except_bind_eq_ok_iff] at h
  obtain ⟨unordered, htotals, _, hnegations, h⟩ := h
  obtain ⟨ps, hparts⟩ := parts_of_totals htotals
  obtain ⟨_, hagain, hadds, _⟩ | ⟨_, _, hfault, _⟩ := totals_of_parts hints hparts
  · obtain rfl := Except.ok.inj (htotals.symm.trans hagain)
    have hle := le_of_checkNegations (except_mapError_eq_ok_iff.mp hnegations)
    have hrows : Adds rows ps := Except.ok.inj h ▸ hadds.perm (order_perm unordered)
    refine ⟨ps, hparts, hrows,
      pairwise_of_aggregate haggregate (hrows.ints (ints_of_parts hints hparts)), fun task => ?_⟩
    by_cases hrow : ∃ r ∈ unordered, r.task = task
    · obtain ⟨r, hr, rfl⟩ := hrow
      rw [← hadds.micros r hr]
      exact hle r hr
    · rw [hadds.total_eq_zero fun r hr htask => hrow ⟨r, hr, htask⟩]
      decide
  · cases htotals.symm.trans hfault

/-- A report is given exactly over intervals without a fault whose totals are durations, and its rows are the
    ordered ones that tell these totals. -/
theorem aggregate_eq_ok_iff (hints : ∀ i ∈ is, ∃ n : Int, i.task = .int n) :
    aggregate is w now = .ok rows ↔ ∃ ps, parts w now is = .ok ps ∧ Adds rows ps ∧
      (rows.Pairwise fun a b => precedes a b = true) ∧ ∀ task, total task ps ≤ Duration.greatest := by
  refine ⟨fun h => parts_of_aggregate h hints, ?_⟩
  rintro ⟨ps, hparts, hadds, hordered, hshort⟩
  obtain ⟨found, hfound, hfoundAdds⟩ | ⟨_, task, _, hlong⟩ := aggregate_of_parts hints hparts
  · obtain ⟨_, _, _, hfoundOrdered, _⟩ := parts_of_aggregate hfound hints
    rw [hfound, eq_of_pairwise (hadds.ints (ints_of_parts hints hparts))
      (hadds.perm_of_adds hfoundAdds) hordered hfoundOrdered]
  · exact absurd (hshort task) (not_le.mpr hlong)

/-- A fault ends the report, if the totals before it are durations. -/
theorem aggregate_of_fault {f : Fault} (hints : ∀ i ∈ before, ∃ n : Int, i.task = .int n)
    (hparts : parts w now before = .ok ps) (hshort : ∀ task, total task ps ≤ Duration.greatest)
    (hclip : clip i w now = .error f) (after : List Interval) :
    aggregate (before ++ i :: after) w now = .error f := by
  obtain ⟨rows, hrows, _⟩ | ⟨_, task, _, hlong⟩ :=
    adds_nil.addUp total_nil_lt (nonneg_of_parts hparts) (ints_of_parts hints hparts)
  · have htotals : totals w now [] (before ++ i :: after) = .error f := by
      rw [totals_append hparts, hrows]
      change totals w now rows (i :: after) = _
      rw [totals, hclip]
      rfl
    rw [aggregate, htotals]
    rfl
  · have hgreatest : Duration.greatest < Duration.limit := by decide
    exact absurd (hshort task) (not_le.mpr (hgreatest.trans_le hlong))

end Report
end Worklog
