import Worklog.Proofs.Number.Rounding
import Worklog.Proofs.Report.Parts

namespace Worklog

namespace Duration

variable {micros later : Nat}

/-- The seconds of a duration are rounded to the nearest double. -/
theorem seconds_nearest (h : (micros : Int) ≤ greatest) :
    ∃ m e, seconds micros = .finite false m e ∧ Double.Nearest ((micros : ℚ) / secondMicros) m e := by
  have hsmall : micros < 2 ^ 1023 * secondMicros := by
    have hgreatest : greatest < 2 ^ 67 := by decide
    have hroom : 2 ^ 67 ≤ 2 ^ 1023 * secondMicros := by decide +kernel
    omega
  have hrange : (micros : ℚ) / secondMicros < 2 ^ (1023 : Int) := by
    rw [div_lt_iff₀ (by norm_num [secondMicros])]
    exact_mod_cast hsmall
  exact Double.ofNatRatio_nearest false micros (by decide) hrange

/-- The whole seconds that are left of a duration as a double. -/
theorem truncate_seconds (h : (micros : Int) ≤ greatest) :
    ∃ m e, (seconds micros).truncate = Double.wholePart m e ∧
      Double.Nearest ((micros : ℚ) / secondMicros) m e := by
  obtain ⟨m, e, hseconds, hnearest⟩ := seconds_nearest h
  exact ⟨m, e, by rw [hseconds, Double.truncate], hnearest⟩

/-- Whole numbers of seconds are doubles. -/
theorem inFormat_of_le {s : Nat} (h : (s * secondMicros : Int) ≤ greatest + secondMicros) :
    Double.InFormat s 0 := by
  have hroom : greatest + secondMicros < Double.mantissaBound * secondMicros := by decide
  refine ⟨?_, by decide, by decide⟩
  exact_mod_cast lt_of_mul_lt_mul_right (h.trans_lt hroom) (Int.natCast_nonneg _)

/-- The double has all whole seconds of a duration, and not more than one beyond. -/
theorem truncate_seconds_bounds (h : (micros : Int) ≤ greatest) :
    ((micros / secondMicros : Nat) : Int) ≤ (seconds micros).truncate ∧
      (seconds micros).truncate ≤ (micros / secondMicros : Nat) + 1 := by
  obtain ⟨m, e, htruncate, hnearest⟩ := truncate_seconds h
  have hsecond : (0 : ℚ) < secondMicros := by norm_num [secondMicros]
  have hdivide := Nat.div_mul_le_self micros secondMicros
  have hrest := Nat.lt_mul_div_succ micros (show 0 < secondMicros by decide)
  rw [Nat.mul_comm] at hrest
  rw [htruncate]
  constructor
  · have hle := hnearest.le_of_le (inFormat_of_le (s := micros / secondMicros) (by omega)) (by
      rw [Double.value_zero_exponent, le_div_iff₀ hsecond]
      exact_mod_cast hdivide)
    rw [Double.value_zero_exponent, ← Double.le_wholePart_iff] at hle
    exact_mod_cast hle
  · have hge := hnearest.ge_of_ge (inFormat_of_le (s := micros / secondMicros + 1) (by
        rw [Nat.cast_succ, add_one_mul]
        omega)) (by
      rw [Double.value_zero_exponent, div_le_iff₀ hsecond]
      exact_mod_cast hrest.le)
    rw [Double.value_zero_exponent] at hge
    have hlt : Double.wholePart m e < micros / secondMicros + 1 + 1 := by
      rw [Double.wholePart_lt_iff]
      push_cast at hge ⊢
      linarith
    omega

/-- Below 2^34 seconds the double has no second that the duration has not: the double before a whole second is
    nearer to what falls short of it by a microsecond. -/
theorem truncate_seconds_exact (h : (micros : Int) ≤ greatest) (hshort : micros < 2 ^ 34 * secondMicros) :
    (seconds micros).truncate = (micros / secondMicros : Nat) := by
  obtain ⟨hlow, _⟩ := truncate_seconds_bounds h
  obtain ⟨m, e, htruncate, hnearest⟩ := truncate_seconds h
  rw [htruncate] at hlow ⊢
  obtain ⟨next, hnext⟩ : ∃ next, next = micros / secondMicros + 1 := ⟨_, rfl⟩
  have hnextPos : 1 ≤ next := hnext ▸ Nat.succ_pos _
  have hnextLe : next ≤ 2 ^ 34 := hnext ▸ Nat.div_lt_of_lt_mul (Nat.mul_comm _ secondMicros ▸ hshort)
  have hmissing : micros + 1 ≤ next * secondMicros := by
    have hrest := Nat.lt_mul_div_succ micros (show 0 < secondMicros by decide)
    rw [← Nat.succ_eq_add_one, hnext, Nat.mul_comm]
    exact hrest
  have hbefore : Double.value (next * 2 ^ 19 - 1) (-19) = next - 1 / 2 ^ 19 := by
    rw [Double.value, Nat.cast_sub (by omega)]
    push_cast
    rw [zpow_neg]
    norm_num
    ring
  have hformat : Double.InFormat (next * 2 ^ 19 - 1) (-19) := by
    refine ⟨?_, by decide, by decide⟩
    have hbound : Double.mantissaBound = 2 ^ 53 := rfl
    omega
  have hclosest := hnearest.closest _ _ hformat
  rw [hbefore] at hclosest
  have hgap : (1 : ℚ) / 1000000 ≤ next - micros / secondMicros := by
    have hcast : (micros : ℚ) + 1 ≤ next * 1000000 := by exact_mod_cast hmissing
    have hsecond : (secondMicros : ℚ) = 1000000 := by norm_num [secondMicros]
    rw [hsecond, div_le_iff₀ (by norm_num), sub_mul, div_mul_cancel₀ _ (by norm_num)]
    linarith
  have hlt : Double.value m e < next := by
    by_contra hreached
    rw [abs_sub_comm, abs_of_nonneg (by linarith)] at hclosest
    obtain hbelow | habove := abs_cases ((micros : ℚ) / secondMicros - (next - 1 / 2 ^ 19))
    · have hspacing : (1 : ℚ) / 2 ^ 19 < 2 / 1000000 := by norm_num
      linarith
    · have hspacing : (0 : ℚ) < 1 / 2 ^ 19 := by norm_num
      linarith
  have := Double.wholePart_lt_iff.mpr hlt
  omega

/-- Longer durations have no fewer whole seconds. -/
theorem truncate_seconds_mono (hle : micros ≤ later) (h : (later : Int) ≤ greatest) :
    (seconds micros).truncate ≤ (seconds later).truncate := by
  obtain rfl | hlt := hle.eq_or_lt
  · exact le_rfl
  obtain ⟨m, e, htruncate, hnearest⟩ := @truncate_seconds micros (by omega)
  obtain ⟨k, f, htruncate', hnearest'⟩ := truncate_seconds h
  have hquotient : (micros : ℚ) / secondMicros < later / secondMicros :=
    div_lt_div_of_pos_right (Nat.cast_lt.mpr hlt) (by norm_num [secondMicros])
  have hvalue := hnearest.mono hnearest' hquotient
  have hwhole : Double.wholePart m e ≤ Double.wholePart k f :=
    Double.le_wholePart_iff.mpr ((Double.le_wholePart_iff.mp le_rfl).trans hvalue)
  rw [htruncate, htruncate']
  exact_mod_cast hwhole

end Duration

namespace HoursMinutes

/-- All minutes of hours and minutes. -/
def total (d : HoursMinutes) : Int := 60 * d.hours + d.minutes

/-- No later on a clock. -/
def AtMost (a b : HoursMinutes) : Prop := a.hours < b.hours ∨ a.hours = b.hours ∧ a.minutes ≤ b.minutes

variable {micros : Int}

theorem ofMicros_spec (micros : Int) :
    0 ≤ (ofMicros micros).minutes ∧ (ofMicros micros).minutes < 60 ∧
      (ofMicros micros).total = (Duration.seconds micros).truncate / 60 := by
  simp only [total, ofMicros, Int.fdiv_eq_ediv_of_nonneg _ (show (0 : Int) ≤ 60 by decide),
    Int.fmod_eq_emod_of_nonneg _ (show (0 : Int) ≤ 60 by decide)]
  omega

/-- The hours and minutes of a duration. They are taken from the nearest double to its seconds; the minutes are
    less than 60, and together they are the whole minutes of the duration or, from 2^34 seconds on, possibly one
    more. No longer duration shows less. -/
theorem ofMicros_at_most_a_minute_late (hpos : 0 ≤ micros) (hgreatest : micros ≤ Duration.greatest) :
    (∃ m e, Duration.seconds micros = .finite false m e ∧
      Double.Nearest ((micros : ℚ) / secondMicros) m e) ∧
    (0 ≤ (ofMicros micros).minutes ∧ (ofMicros micros).minutes < 60 ∧ 0 ≤ (ofMicros micros).hours) ∧
    (micros / minuteMicros ≤ (ofMicros micros).total ∧
      (ofMicros micros).total ≤ micros / minuteMicros + 1) ∧
    (micros < 2 ^ 34 * secondMicros → (ofMicros micros).total = micros / minuteMicros) ∧
    ∀ later, micros ≤ later → later ≤ Duration.greatest → (ofMicros micros).AtMost (ofMicros later) := by
  obtain ⟨n, rfl⟩ := Int.eq_ofNat_of_zero_le hpos
  obtain ⟨hminutes, hminutesLt, htotal⟩ := ofMicros_spec n
  obtain ⟨hlow, hhigh⟩ := Duration.truncate_seconds_bounds hgreatest
  have hminute : (n / secondMicros : Nat) / 60 = n / minuteMicros := Nat.div_div_eq_div_mul _ _ _
  have hcast : ((n / secondMicros : Nat) : Int) / 60 = (n : Int) / minuteMicros := by exact_mod_cast hminute
  refine ⟨?_, ⟨hminutes, hminutesLt, ?_⟩, ⟨?_, ?_⟩, fun hshort => ?_, fun later hle hlater => ?_⟩
  · rw [Int.cast_natCast]
    exact Duration.seconds_nearest hgreatest
  · have hwhole : (0 : Int) ≤ (n / secondMicros : Nat) := Int.natCast_nonneg _
    rw [total] at htotal
    omega
  · omega
  · omega
  · rw [htotal, Duration.truncate_seconds_exact hgreatest (by exact_mod_cast hshort), hcast]
  · obtain ⟨k, rfl⟩ := Int.eq_ofNat_of_zero_le (hpos.trans hle)
    obtain ⟨hminutes', hminutesLt', htotal'⟩ := ofMicros_spec k
    have hmono := Duration.truncate_seconds_mono (Int.ofNat_le.mp hle) hlater
    rw [total] at htotal htotal'
    unfold AtMost
    omega

/-- A microsecond before a full minute the shown minutes are still the whole ones, up to the last such duration
    below 2^34 seconds, and one more from the next such duration on. -/
theorem ofMicros_late_from_next_minute :
    (ofMicros (286331153 * minuteMicros - 1)).total = 286331152 ∧
      (ofMicros (286331154 * minuteMicros - 1)).total = 286331154 := by
  obtain ⟨_, _, _, hexact, _⟩ :=
    @ofMicros_at_most_a_minute_late (286331153 * minuteMicros - 1) (by decide) (by decide)
  exact ⟨hexact (by decide), by decide +kernel⟩

end HoursMinutes
end Worklog
