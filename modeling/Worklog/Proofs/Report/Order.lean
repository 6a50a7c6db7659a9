import Worklog.Report

namespace Worklog.Report

variable {row a b : TaskTime} {rows rows' : List TaskTime}

theorem precedes_iff {m n : Int} (ha : a.task = .int m) (hb : b.task = .int n) :
    precedes a b = true ↔ b.micros < a.micros ∨ a.micros = b.micros ∧ m ≤ n := by
  simp [precedes, ha, hb, Ident.atMost_int]

theorem precedes_trans {c : TaskTime} (ha : ∃ n : Int, a.task = .int n) (hb : ∃ n : Int, b.task = .int n)
    (hc : ∃ n : Int, c.task = .int n) (hab : precedes a b = true) (hbc : precedes b c = true) :
    precedes a c = true := by
  obtain ⟨l, ha⟩ := ha
  obtain ⟨m, hb⟩ := hb
  obtain ⟨n, hc⟩ := hc
  rw [precedes_iff ha hb] at hab
  rw [precedes_iff hb hc] at hbc
  rw [precedes_iff ha hc]
  omega

theorem precedes_of_not (ha : ∃ n : Int, a.task = .int n) (hb : ∃ n : Int, b.task = .int n)
    (h : ¬ precedes a b = true) : precedes b a = true := by
  obtain ⟨m, ha⟩ := ha
  obtain ⟨n, hb⟩ := hb
  rw [precedes_iff ha hb] at h
  rw [precedes_iff hb ha]
  omega

theorem eq_of_precedes (ha : ∃ n : Int, a.task = .int n) (hb : ∃ n : Int, b.task = .int n)
    (hab : precedes a b = true) (hba : precedes b a = true) : a = b := by
  obtain ⟨m, ha⟩ := ha
  obtain ⟨n, hb⟩ := hb
  rw [precedes_iff ha hb] at hab
  rw [precedes_iff hb ha] at hba
  have htask : m = n := by omega
  have hmicros : a.micros = b.micros := by omega
  cases a
  cases b
  simp_all

theorem place_perm (row : TaskTime) (rows : List TaskTime) : (place row rows).Perm (row :: rows) := by
  induction rows with
  | nil => exact .refl _
  | cons r rows ih =>
    unfold place
    split
    · exact .refl _
    · exact (ih.cons r).trans (.swap row r rows)

theorem order_perm (rows : List TaskTime) : (order rows).Perm rows := by
  induction rows with
  | nil => exact .refl _
  | cons r rows ih => exact (place_perm r (order rows)).trans (ih.cons r)

/-- A row that is put in its place leaves the rows in order. -/
theorem pairwise_place (hrow : ∃ n : Int, row.task = .int n)
    (hrows : ∀ r ∈ rows, ∃ n : Int, r.task = .int n)
    (h : rows.Pairwise fun a b => precedes a b = true) :
    (place row rows).Pairwise fun a b => precedes a b = true := by
  induction rows with
  | nil => exact List.pairwise_singleton ..
  | cons first rows ih =>
    obtain ⟨hfirst, hrest⟩ := List.pairwise_cons.mp h
    have hints : ∀ r ∈ rows, ∃ n : Int, r.task = .int n :=
      fun r hr => hrows r (List.mem_cons_of_mem _ hr)
    have hfirstInt := hrows first List.mem_cons_self
    unfold place
    split
    · next hbefore =>
      refine List.pairwise_cons.mpr ⟨fun r hr => ?_, h⟩
      obtain rfl | hr := List.mem_cons.mp hr
      · exact hbefore
      · exact precedes_trans hrow hfirstInt (hints r hr) hbefore (hfirst r hr)
    · next hafter =>
      refine List.pairwise_cons.mpr ⟨fun r hr => ?_, ih hints hrest⟩
      obtain rfl | hr := List.mem_cons.mp ((place_perm row rows).mem_iff.mp hr)
      · exact precedes_of_not hrow hfirstInt hafter
      · exact hfirst r hr

theorem pairwise_order (hrows : ∀ r ∈ rows, ∃ n : Int, r.task = .int n) :
    (order rows).Pairwise fun a b => precedes a b = true := by
  induction rows with
  | nil => exact .nil
  | cons row rows ih =>
    have hints : ∀ r ∈ rows, ∃ n : Int, r.task = .int n :=
      fun r hr => hrows r (List.mem_cons_of_mem _ hr)
    exact pairwise_place (hrows row List.mem_cons_self)
      (fun r hr => hints r ((order_perm rows).mem_iff.mp hr)) (ih hints)

/-- A row comes before another one by its time or by its task. -/
def Ahead (a b : TaskTime) : Prop :=
  b.micros < a.micros ∨ a.micros = b.micros ∧ ∃ m n : Int, m < n ∧ a.task = .int m ∧ b.task = .int n

theorem precedes_of_ahead (h : Ahead a b) : precedes a b = true := by
  obtain hlt | ⟨hsame, m, n, hlt, ha, hb⟩ := h
  · simp [precedes, hlt]
  · exact (precedes_iff ha hb).mpr (.inr ⟨hsame, Int.le_of_lt hlt⟩)

theorem ahead_of_precedes (ha : ∃ n : Int, a.task = .int n) (hb : ∃ n : Int, b.task = .int n)
    (hne : a.task ≠ b.task) (h : precedes a b = true) : Ahead a b := by
  obtain ⟨m, ha⟩ := ha
  obtain ⟨n, hb⟩ := hb
  rw [precedes_iff ha hb] at h
  have hmn : m ≠ n := fun hmn => hne (by rw [ha, hb, hmn])
  exact h.imp_right fun ⟨hsame, hle⟩ => ⟨hsame, m, n, by omega, ha, hb⟩

/-- Among rows of different tasks there are no ties. -/
theorem pairwise_ahead_iff (hrows : ∀ r ∈ rows, ∃ n : Int, r.task = .int n)
    (hnodup : (rows.map (·.task)).Nodup) :
    rows.Pairwise Ahead ↔ rows.Pairwise fun a b => precedes a b = true := by
  refine ⟨fun h => h.imp precedes_of_ahead, fun h => ?_⟩
  refine ((List.pairwise_map.mp hnodup).and h).imp_of_mem fun ha hb hab => ?_
  exact ahead_of_precedes (hrows _ ha) (hrows _ hb) hab.1 hab.2

/-- The same rows in order are the same list. -/
theorem eq_of_pairwise (hrows : ∀ r ∈ rows, ∃ n : Int, r.task = .int n) (hperm : rows.Perm rows')
    (h : rows.Pairwise fun a b => precedes a b = true)
    (h' : rows'.Pairwise fun a b => precedes a b = true) : rows = rows' :=
  List.Perm.eq_of_pairwise (fun a b ha hb hab hba =>
    eq_of_precedes (hrows a ha) (hrows b (hperm.mem_iff.mpr hb)) hab hba) h h' hperm

end Worklog.Report
