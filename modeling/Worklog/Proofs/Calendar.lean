import Mathlib.Algebra.Order.BigOperators.Group.List
import Mathlib.Algebra.Order.Ring.Nat
import Mathlib.Data.Char
import Mathlib.Data.List.Lex
import Worklog.Moment.Text

namespace Worklog

namespace Date

/-- The number of days in a year. -/
def yearLength (year : Nat) : Nat := if isLeap year then 366 else 365

theorem isLeap_iff (year : Nat) : isLeap year = true ↔ 4 ∣ year ∧ (¬ 100 ∣ year ∨ 400 ∣ year) := by
  simp [isLeap, Nat.dvd_iff_mod_eq_zero]

theorem sum_monthLengths (year : Nat) : (monthLengths (isLeap year)).sum = yearLength year := by
  unfold yearLength
  cases isLeap year <;> rfl

/-- A year starts where the one before it ends. -/
theorem daysBeforeYear_succ {year : Nat} (h : 1 ≤ year) :
    daysBeforeYear (year + 1) = daysBeforeYear year + yearLength year := by
  obtain ⟨y, rfl⟩ := Nat.exists_eq_add_of_le' h
  have hcentury : 100 ∣ y + 1 → 4 ∣ y + 1 := fun hdvd => Nat.dvd_trans (by decide) hdvd
  have hera : 400 ∣ y + 1 → 100 ∣ y + 1 := fun hdvd => Nat.dvd_trans (by decide) hdvd
  have hfewer : y / 100 ≤ y / 4 := Nat.div_le_div_left (by decide) (by decide)
  simp only [yearLength, isLeap_iff, daysBeforeYear, Nat.add_sub_cancel, Nat.succ_div]
  by_cases h4 : 4 ∣ y + 1
  · by_cases h100 : 100 ∣ y + 1
    · by_cases h400 : 400 ∣ y + 1
      · rw [if_pos h4, if_pos h100, if_pos h400, if_pos ⟨h4, .inr h400⟩]
        omega
      · rw [if_pos h4, if_pos h100, if_neg h400, if_neg (by tauto)]
        omega
    · rw [if_pos h4, if_neg h100, if_neg (mt hera h100), if_pos ⟨h4, .inl h100⟩]
      omega
  · rw [if_neg h4, if_neg (mt hcentury h4), if_neg (mt hera (mt hcentury h4)), if_neg (by tauto)]
    omega

theorem daysBeforeYear_mono : Monotone daysBeforeYear := by
  refine monotone_nat_of_le_succ fun year => ?_
  cases year with
  | zero => decide
  | succ year => exact daysBeforeYear_succ (Nat.succ_pos year) ▸ Nat.le_add_right _ _

/-- A day lies in its year. -/
theorem splitYears_spec (days : Nat) :
    daysBeforeYear (splitYears days).1 + (splitYears days).2 = days ∧ 1 ≤ (splitYears days).1 ∧
      (splitYears days).2 < yearLength (splitYears days).1 := by
  simp only [splitYears, daysBeforeYear, Nat.add_sub_cancel, yearLength, isLeap_iff, Nat.dvd_iff_mod_eq_zero]
  generalize hera : days / 146097 = era
  generalize hinEra : days % 146097 = inEra
  generalize hcentury : min (inEra / 36524) 3 = century
  generalize hinCentury : inEra - 36524 * century = inCentury
  generalize holympiad : inCentury / 1461 = olympiad
  generalize hinOlympiad : inCentury % 1461 = inOlympiad
  generalize hsingle : min (inOlympiad / 365) 3 = single
  -- The quotients are the digits of the year before, so that its leap days can be read off them.
  have hcentury_le : century ≤ 3 := by omega
  have holympiad_le : olympiad ≤ 24 := by omega
  have hsingle_le : single ≤ 3 := by omega
  have hdays : days = 146097 * era + 36524 * century + 1461 * olympiad + inOlympiad := by omega
  have hfourth : (400 * era + 100 * century + 4 * olympiad + single) / 4 =
      100 * era + 25 * century + olympiad := by omega
  have hhundredth : (400 * era + 100 * century + 4 * olympiad + single) / 100 = 4 * era + century := by
    omega
  have hlast : (400 * era + 100 * century + 4 * olympiad + single) / 400 = era := by omega
  rw [hfourth, hhundredth, hlast]
  refine ⟨by omega, by omega, ?_⟩
  split <;> omega

/-- Days of the year before a month. -/
def daysBeforeMonth (year month : Nat) : Nat := ((monthLengths (isLeap year)).take (month - 1)).sum

theorem toDays_eq (d : Date) :
    d.toDays = daysBeforeYear d.year + daysBeforeMonth d.year d.month + (d.day - 1) := by
  rw [toDays, daysBeforeMonth, List.sum_eq_foldr]

theorem daysBeforeMonth_mono (year : Nat) : Monotone (daysBeforeMonth year) :=
  fun _ _ h => List.monotone_sum_take _ (Nat.sub_le_sub_right h 1)

/-- A month starts where the one before it ends. -/
theorem daysBeforeMonth_succ (year : Nat) {month : Nat} (h : 1 ≤ month) :
    daysBeforeMonth year (month + 1) = daysBeforeMonth year month + daysIn year month := by
  obtain ⟨m, rfl⟩ := Nat.exists_eq_add_of_le' h
  rw [daysBeforeMonth, daysBeforeMonth, daysIn, if_neg (Nat.succ_ne_zero m), Nat.add_sub_cancel,
    Nat.add_sub_cancel, List.take_add_one, List.sum_append]
  cases (monthLengths (isLeap year))[m]? <;> simp

theorem daysIn_le (year month : Nat) : daysIn year month ≤ 31 := by
  have hall : ∀ leap, ∀ length ∈ monthLengths leap, length ≤ 31 := by decide
  unfold daysIn
  split
  · decide
  · cases hlength : (monthLengths (isLeap year))[month - 1]? with
    | none => decide
    | some length => exact hall _ length (List.mem_of_getElem? hlength)

/-- The months are over at the end of the year. -/
theorem daysBeforeMonth_le (year month : Nat) : daysBeforeMonth year month ≤ yearLength year := by
  rw [← sum_monthLengths, daysBeforeMonth]
  exact (List.take_sublist _ _).sum_le_sum (fun _ _ => Nat.zero_le _)

/-- A day of the year lies in its month. -/
theorem splitMonths_spec {lengths : List Nat} {day : Nat} (h : day < lengths.sum) :
    (lengths.take (splitMonths lengths day).1).sum + (splitMonths lengths day).2 = day ∧
      (splitMonths lengths day).2 < (lengths[(splitMonths lengths day).1]?).getD 0 := by
  induction lengths generalizing day with
  | nil => exact absurd h (Nat.not_lt_zero _)
  | cons length later ih =>
    rw [List.sum_cons] at h
    unfold splitMonths
    by_cases hday : day < length
    · rw [if_pos hday]
      exact ⟨by simp, hday⟩
    · obtain ⟨hsum, hlt⟩ := ih (show day - length < later.sum by omega)
      rw [if_neg hday]
      refine ⟨?_, by simpa using hlt⟩
      rw [List.take_succ_cons, List.sum_cons]
      omega

/-- A date counts fewer days than the end of its month. -/
theorem toDays_lt_of_valid {d : Date} (h : d.Valid) :
    d.toDays < daysBeforeYear d.year + daysBeforeMonth d.year (d.month + 1) := by
  obtain ⟨-, hmonth, hday⟩ := h
  rw [toDays_eq, daysBeforeMonth_succ d.year hmonth.1]
  omega

/-- The date of a day counts the days before it. -/
theorem toDays_ofDays (days : Nat) : (ofDays days).toDays = days := by
  obtain ⟨hyear, -, hlt⟩ := splitYears_spec days
  obtain ⟨hmonth, -⟩ := splitMonths_spec (sum_monthLengths _ ▸ hlt)
  rw [toDays_eq]
  simp only [ofDays, daysBeforeMonth, Nat.add_sub_cancel]
  omega

/-- The days of the calendar have dates of the years 1 to 9999. -/
theorem valid_ofDays {days : Nat} (h : days < 3652059) : (ofDays days).Valid := by
  obtain ⟨hyear, hfirst, hlt⟩ := splitYears_spec days
  obtain ⟨-, hday⟩ := splitMonths_spec (sum_monthLengths _ ▸ hlt)
  have hlast : (splitYears days).1 ≤ 9999 := by
    by_contra hlate
    have hbefore : daysBeforeYear 10000 ≤ daysBeforeYear (splitYears days).1 :=
      daysBeforeYear_mono (by omega)
    have hwhole : daysBeforeYear 10000 = 3652059 := rfl
    omega
  have hmonth : (splitMonths (monthLengths (isLeap (splitYears days).1)) (splitYears days).2).1 < 12 := by
    by_contra hlate
    rw [List.getElem?_eq_none (show _ ≤ _ from Nat.le_of_not_lt hlate)] at hday
    exact absurd hday (Nat.not_lt_zero _)
  refine ⟨⟨hfirst, hlast⟩, ⟨Nat.succ_pos _, hmonth⟩, Nat.succ_pos _, ?_⟩
  simpa only [ofDays, daysIn, Nat.succ_ne_zero, if_false, Nat.add_sub_cancel] using Nat.succ_le_of_lt hday

/-- The fields of a date, the weightiest first. -/
def fields (d : Date) : List Nat := [d.year, d.month, d.day]

/-- A later date counts more days. -/
theorem toDays_lt_of_fields_lt {a b : Date} (ha : a.Valid) (h : a.fields < b.fields) :
    a.toDays < b.toDays := by
  have hend := toDays_lt_of_valid ha
  simp only [fields, List.cons_lt_cons_iff, List.not_lt_nil, and_false, or_false] at h
  obtain hyear | ⟨hyear, hmonth | ⟨hmonth, hday⟩⟩ := h
  · have hnext : daysBeforeYear (a.year + 1) ≤ daysBeforeYear b.year := daysBeforeYear_mono hyear
    have hwithin := daysBeforeMonth_le a.year (a.month + 1)
    rw [daysBeforeYear_succ ha.1.1] at hnext
    rw [toDays_eq b]
    omega
  · have hnext : daysBeforeMonth a.year (a.month + 1) ≤ daysBeforeMonth a.year b.month :=
      daysBeforeMonth_mono a.year hmonth
    rw [toDays_eq b, ← hyear]
    omega
  · have hfirst := ha.2.2.1
    rw [toDays_eq, toDays_eq, ← hyear, ← hmonth]
    omega

end Date

namespace Digits

theorem length_fixed (width n : Nat) : (fixed width n).length = width := by
  induction width generalizing n with
  | zero => rfl
  | succ width ih => rw [fixed, List.length_append, ih, List.length_singleton]

theorem append_lt_append {a b : List Char} (hlength : a.length = b.length) (h : a < b) (c d : List Char) :
    a ++ c < b ++ d := by
  induction a generalizing b with
  | nil =>
    rw [List.eq_nil_of_length_eq_zero hlength.symm] at h
    exact absurd h (List.not_lt_nil _)
  | cons x a ih =>
    cases b with
    | nil => exact absurd h (List.not_lt_nil _)
    | cons y b =>
      rw [List.cons_lt_cons_iff] at h
      rw [List.cons_append, List.cons_append, List.cons_lt_cons_iff]
      exact h.imp_right fun ⟨hhead, htail⟩ => ⟨hhead, ih (Nat.succ.inj hlength) htail⟩

theorem digitChar_lt {m n : Nat} (h : m < n) (hn : n < 10) : m.digitChar < n.digitChar := by
  have hall : ∀ n : Fin 10, ∀ m : Fin n, m.val.digitChar < n.val.digitChar := by decide
  exact hall ⟨n, hn⟩ ⟨m, h⟩

/-- Numbers of one width are ordered as texts. -/
theorem fixed_lt_fixed {width m n : Nat} (h : m < n) (hn : n < 10 ^ width) :
    fixed width m < fixed width n := by
  induction width generalizing m n with
  | zero => omega
  | succ width ih =>
    rw [Nat.pow_succ] at hn
    by_cases hhead : m / 10 = n / 10
    · have hlast : m % 10 < n % 10 := by omega
      rw [fixed, fixed, hhead]
      exact List.append_left_lt (List.cons_lt_cons_iff.mpr (.inl (digitChar_lt hlast (by omega))))
    · refine append_lt_append ?_ (ih (by omega) (by omega)) _ _
      rw [length_fixed, length_fixed]

/-- Numbers written one after the other, each with what comes before it and its width. -/
def written : List (List Char × Nat) → List Nat → List Char
  | (lead, width) :: form, n :: ns => lead ++ fixed width n ++ written form ns
  | _, _ => []

/-- Numbers that fit the form are ordered as texts, the first ones first. -/
theorem written_lt {form : List (List Char × Nat)} {ms ns : List Nat}
    (hfit : List.Forall₂ (fun field n => n < 10 ^ field.2) form ns) (hlength : ms.length = ns.length)
    (h : ms < ns) : written form ms < written form ns := by
  induction hfit generalizing ms with
  | nil => exact absurd h (List.not_lt_nil _)
  | @cons field n form ns hn _ ih =>
    cases ms with
    | nil => cases hlength
    | cons m ms =>
      rw [written, written, List.append_assoc, List.append_assoc]
      refine List.append_left_lt ?_
      obtain hlt | ⟨rfl, htail⟩ := List.cons_lt_cons_iff.mp h
      · refine append_lt_append ?_ (fixed_lt_fixed hlt hn) _ _
        rw [length_fixed, length_fixed]
      · exact List.append_left_lt (ih (Nat.succ.inj hlength) htail)

end Digits

/-- What a calendar and a clock show. -/
structure Reading where
  date : Date
  hour : Nat
  minute : Nat
  second : Nat
  micro : Nat
  deriving DecidableEq, Repr

namespace Reading

/-- The reading exists: a date of the years 1 to 9999 and a time of day. -/
structure Valid (r : Reading) : Prop where
  date : r.date.Valid
  hour_lt : r.hour < 24
  minute_lt : r.minute < 60
  second_lt : r.second < 60
  micro_lt : r.micro < 1000000

/-- The fields of a reading, the weightiest first. -/
def fields (r : Reading) : List Nat :=
  [r.date.year, r.date.month, r.date.day, r.hour, r.minute, r.second, r.micro]

/-- How a column of texts writes readings: each field with what comes before it and its width. -/
def columnForm : List (List Char × Nat) :=
  [([], 4), (['-'], 2), (['-'], 2), ([' '], 2), ([':'], 2), ([':'], 2), (['.'], 6)]

/-- Microseconds since midnight. -/
def sinceMidnight (r : Reading) : Nat :=
  ((60 * r.hour + r.minute) * 60 + r.second) * secondMicros + r.micro

/-- Microseconds since the start of year 1. -/
def micros (r : Reading) : Nat := r.date.toDays * dayMicros + r.sinceMidnight

theorem fields_inj {a b : Reading} : a.fields = b.fields ↔ a = b := by
  refine ⟨fun h => ?_, fun h => h ▸ rfl⟩
  obtain ⟨⟨year, month, day⟩, hour, minute, second, micro⟩ := a
  obtain ⟨⟨year', month', day'⟩, hour', minute', second', micro'⟩ := b
  simpa [fields, and_assoc] using h

namespace Valid

variable {a b : Reading}

theorem sinceMidnight_lt (h : a.Valid) : a.sinceMidnight < dayMicros := by
  obtain ⟨-, hhour, hminute, hsecond, hmicro⟩ := h
  simp only [sinceMidnight, dayMicros, minuteMicros, secondMicros]
  omega

/-- A later reading counts more microseconds. -/
theorem micros_lt_of_fields_lt (ha : a.Valid) (h : a.fields < b.fields) : a.micros < b.micros := by
  have hday := ha.sinceMidnight_lt
  -- On one day the times of day decide; otherwise the earlier day is over before the later one starts.
  by_cases hdate : a.date = b.date
  · obtain ⟨-, hhour, hminute, hsecond, hmicro⟩ := ha
    simp only [fields, hdate, List.cons_lt_cons_iff, lt_self_iff_false, true_and, false_or, and_false,
      or_false] at h
    simp only [micros, sinceMidnight, hdate, secondMicros]
    omega
  · have hdays : a.date.toDays < b.date.toDays := by
      refine Date.toDays_lt_of_fields_lt ha.date ?_
      obtain ⟨⟨year, month, day⟩, hour, minute, second, micro⟩ := a
      obtain ⟨⟨year', month', day'⟩, hour', minute', second', micro'⟩ := b
      simp only [fields, Date.fields, List.cons_lt_cons_iff] at h ⊢
      obtain hyear | ⟨rfl, hmonth | ⟨rfl, hday | ⟨rfl, -⟩⟩⟩ := h
      · exact .inl hyear
      · exact .inr ⟨rfl, .inl hmonth⟩
      · exact .inr ⟨rfl, .inr ⟨rfl, .inl hday⟩⟩
      · exact absurd rfl hdate
    have hnext : (a.date.toDays + 1) * dayMicros ≤ b.date.toDays * dayMicros := Nat.mul_le_mul_right _ hdays
    rw [Nat.add_one_mul] at hnext
    rw [micros, micros]
    omega

/-- Readings are ordered by their fields as their counts are. -/
theorem fields_lt_iff (ha : a.Valid) (hb : b.Valid) : a.fields < b.fields ↔ a.micros < b.micros := by
  refine ⟨ha.micros_lt_of_fields_lt, fun h => ?_⟩
  obtain hlt | heq | hgt := lt_trichotomy a.fields b.fields
  · exact hlt
  · exact absurd h (fields_inj.mp heq ▸ Nat.lt_irrefl _)
  · exact absurd h (Nat.lt_asymm (hb.micros_lt_of_fields_lt hgt))

theorem micros_inj (ha : a.Valid) (hb : b.Valid) : a.micros = b.micros ↔ a = b := by
  refine ⟨fun h => ?_, fun h => h ▸ rfl⟩
  obtain hlt | heq | hgt := lt_trichotomy a.fields b.fields
  · exact absurd h (Nat.ne_of_lt (ha.micros_lt_of_fields_lt hlt))
  · exact fields_inj.mp heq
  · exact absurd h (Nat.ne_of_gt (hb.micros_lt_of_fields_lt hgt))

/-- The fields fit the widths of a column. -/
theorem fields_fit (h : a.Valid) : List.Forall₂ (fun form n => n < 10 ^ form.2) columnForm a.fields := by
  obtain ⟨⟨⟨-, hyear⟩, ⟨-, hmonth⟩, -, hday⟩, hhour, hminute, hsecond, hmicro⟩ := h
  have hlength := Date.daysIn_le a.date.year a.date.month
  simp only [columnForm, fields, List.forall₂_cons, List.forall₂_nil_left_iff, and_true]
  omega

end Valid

/-- The reading as it stands in a column of texts. -/
def columnText (r : Reading) : List Char := Digits.written columnForm r.fields

/-- A column of texts is ordered as its readings are. -/
theorem Valid.columnText_lt_iff {a b : Reading} (ha : a.Valid) (hb : b.Valid) :
    a.columnText < b.columnText ↔ a.micros < b.micros := by
  have hmono {a b : Reading} (ha : a.Valid) (hb : b.Valid) (h : a.micros < b.micros) :
      a.columnText < b.columnText :=
    Digits.written_lt hb.fields_fit rfl ((ha.fields_lt_iff hb).mpr h)
  refine ⟨fun h => ?_, hmono ha hb⟩
  obtain hlt | heq | hgt := Nat.lt_trichotomy a.micros b.micros
  · exact hlt
  · exact absurd ((ha.micros_inj hb).mp heq ▸ h) (lt_irrefl _)
  · exact absurd h (lt_asymm (hmono hb ha hgt))

end Reading

/-- The reading of the moment's clock. -/
def Moment.reading (m : Moment) : Reading :=
  let minutes := m.wall % dayMicros / minuteMicros
  ⟨Date.ofDays (m.wall / dayMicros), minutes / 60, minutes % 60, m.wall % dayMicros / secondMicros % 60,
    m.wall % dayMicros % secondMicros⟩

namespace Moment

theorem micros_reading (m : Moment) : m.reading.micros = m.wall := by
  have hday := Nat.div_add_mod' m.wall dayMicros
  simp only [reading, Reading.micros, Reading.sinceMidnight, Date.toDays_ofDays, minuteMicros,
    secondMicros] at hday ⊢
  omega

theorem valid_reading (m : Moment) : m.reading.Valid := by
  have hwall := m.wall_lt
  have hdays : m.wall / dayMicros < 3652059 := Nat.div_lt_of_lt_mul (by rwa [Nat.mul_comm])
  have hrest : m.wall % dayMicros < dayMicros := Nat.mod_lt _ (by decide)
  refine ⟨Date.valid_ofDays hdays, ?_, Nat.mod_lt _ (by decide), Nat.mod_lt _ (by decide),
    Nat.mod_lt _ (by decide)⟩
  simp only [reading, dayMicros, minuteMicros, secondMicros] at hrest ⊢
  omega

end Moment
end Worklog
