import Mathlib.Algebra.Order.Field.Power
import Mathlib.Algebra.Order.Floor.Semifield
import Mathlib.Data.Rat.Floor
import Mathlib.Tactic.FieldSimp
import Mathlib.Tactic.Linarith
import Worklog.Number.Double

namespace Worklog.Double

/-- What a finite number is worth, its sign aside. -/
def value (mantissa : Nat) (exponent : Int) : ℚ := mantissa * 2 ^ exponent

/-- The format has a number with this mantissa and this exponent. -/
structure InFormat (mantissa : Nat) (exponent : Int) : Prop where
  mantissa_lt : mantissa < mantissaBound
  least : -1074 ≤ exponent
  greatest : exponent ≤ 971

/-- The number of the format that is nearest to a value, written with as many bits as the format has. Of two
    numbers that are equally near it is the one with the even mantissa. -/
structure Nearest (x : ℚ) (mantissa : Nat) (exponent : Int) : Prop where
  inFormat : InFormat mantissa exponent
  full : leastFull ≤ mantissa ∨ exponent = -1074
  closest : ∀ j f, InFormat j f → |x - value mantissa exponent| ≤ |x - value j f|
  even_of_tie : ∀ j f, InFormat j f → value j f ≠ value mantissa exponent →
    |x - value mantissa exponent| = |x - value j f| → Even mantissa

variable {m j k num den : Nat} {e f : Int} {x y : ℚ}

theorem value_mantissaBound (e : Int) : value mantissaBound e = 2 ^ (53 + e) := by
  rw [value, zpow_add₀ two_ne_zero]
  norm_num [mantissaBound]

theorem value_leastFull (e : Int) : value leastFull e = 2 ^ (52 + e) := by
  rw [value, zpow_add₀ two_ne_zero]
  norm_num [leastFull]

theorem raise_two (h : 0 ≤ e) : (raise 2 e : ℚ) = 2 ^ e := by
  obtain ⟨n, rfl⟩ := Int.eq_ofNat_of_zero_le h
  simp [raise]

theorem value_nonneg (m : Nat) (e : Int) : 0 ≤ value m e := by
  unfold value
  positivity

theorem value_zero_exponent (m : Nat) : value m 0 = m := by simp [value]

/-- A greater exponent is made up for by the mantissa. -/
theorem value_eq_of_le (h : e ≤ f) (j : Nat) : value j f = value (j * 2 ^ (f - e).toNat) e := by
  have hsplit : (2 : ℚ) ^ f = 2 ^ (f - e).toNat * 2 ^ e := by
    rw [← zpow_natCast, ← zpow_add₀ two_ne_zero, Int.toNat_of_nonneg (by omega)]
    congr 1
    omega
  rw [value, value, hsplit]
  push_cast
  ring

theorem value_leastFull_succ (e : Int) : value leastFull (e + 1) = value mantissaBound e := by
  rw [value_leastFull, value_mantissaBound]
  congr 1
  omega

/-- Numbers with a smaller exponent are smaller than those with all bits. -/
theorem value_lt_of_lt (h : f < e) (hj : j < mantissaBound) : value j f < value leastFull e := by
  calc value j f < value mantissaBound f := by
        exact mul_lt_mul_of_pos_right (Nat.cast_lt.mpr hj) (by positivity)
    _ = value leastFull (f + 1) := (value_leastFull_succ f).symm
    _ ≤ value leastFull e :=
        mul_le_mul_of_nonneg_left (zpow_le_zpow_right₀ one_le_two (by omega)) (Nat.cast_nonneg _)

/-- The rounded quotient is not further off than a half, and even if it is that far off. -/
theorem roundDiv_spec (num : Nat) (h : 0 < den) :
    |(num : ℚ) / den - roundDiv num den| ≤ 1 / 2 ∧
      (|(num : ℚ) / den - roundDiv num den| = 1 / 2 → Even (roundDiv num den)) := by
  have hdivide := Nat.div_add_mod' num den
  have hrest := Nat.mod_lt num h
  have hround : (2 * num ≤ 2 * (roundDiv num den * den) + den ∧
      2 * (roundDiv num den * den) ≤ 2 * num + den) ∧
      (2 * num = 2 * (roundDiv num den * den) + den ∨ 2 * (roundDiv num den * den) = 2 * num + den →
        roundDiv num den % 2 = 0) := by
    unfold roundDiv
    dsimp only
    split
    · omega
    split
    · rw [Nat.add_mul]
      omega
    split
    · omega
    · rw [Nat.add_mul]
      omega
  obtain ⟨⟨hlow, hhigh⟩, heven⟩ := hround
  have hpos : (0 : ℚ) < den := Nat.cast_pos.mpr h
  have hdiff : (num : ℚ) / den - roundDiv num den = (num - roundDiv num den * den) / den := by
    field_simp
  have hlowCast : (2 : ℚ) * num ≤ 2 * (roundDiv num den * den) + den := by exact_mod_cast hlow
  have hhighCast : (2 : ℚ) * (roundDiv num den * den) ≤ 2 * num + den := by exact_mod_cast hhigh
  rw [hdiff, abs_div, abs_of_pos hpos, div_le_iff₀ hpos, div_eq_iff hpos.ne']
  refine ⟨abs_le.mpr ⟨by linarith, by linarith⟩, fun htie => Nat.even_iff.mpr (heven ?_)⟩
  obtain hsign | hsign := abs_choice ((num : ℚ) - roundDiv num den * den)
  · left
    have hcast : (2 : ℚ) * num = 2 * (roundDiv num den * den) + den := by linarith
    exact_mod_cast hcast
  · right
    have hcast : (2 : ℚ) * (roundDiv num den * den) = 2 * num + den := by linarith
    exact_mod_cast hcast

/-- No other integer is nearer, and one that is as near makes the rounded quotient even. -/
theorem roundDiv_nearest (num : Nat) (h : 0 < den) (j : Nat) (hj : j ≠ roundDiv num den) :
    |(num : ℚ) / den - roundDiv num den| ≤ |(num : ℚ) / den - j| ∧
      (|(num : ℚ) / den - roundDiv num den| = |(num : ℚ) / den - j| → Even (roundDiv num den)) := by
  obtain ⟨hhalf, heven⟩ := roundDiv_spec num h
  have hapart : (1 : ℚ) ≤ |(j : ℚ) - roundDiv num den| := by
    have hint : (1 : ℤ) ≤ |(j : ℤ) - roundDiv num den| := Int.one_le_abs (by omega)
    exact_mod_cast hint
  have htriangle := abs_sub_le (j : ℚ) ((num : ℚ) / den) (roundDiv num den)
  rw [abs_sub_comm (j : ℚ) ((num : ℚ) / den)] at htriangle
  exact ⟨by linarith, fun htie => heven (by linarith)⟩

theorem scaled_pos (num : Nat) (h : 0 < den) (e : Int) : 0 < (scaled num den e).2 := by
  unfold scaled
  split
  · exact Nat.mul_pos h (Nat.pow_pos (by decide))
  · exact h

theorem scaled_eq (num den : Nat) (e : Int) :
    ((scaled num den e).1 : ℚ) / (scaled num den e).2 = num / den / 2 ^ e := by
  unfold scaled
  split
  · next he => rw [Nat.cast_mul, raise_two he, div_div]
  · rw [Nat.cast_mul, raise_two (by omega), zpow_neg, div_div]
    field_simp

/-- A quotient lies between the powers of two that its logarithms tell. -/
theorem quotient_bounds (hnum : num ≠ 0) (hden : den ≠ 0) :
    (2 : ℚ) ^ ((num.log2 : Int) - den.log2 - 1) < num / den ∧
      (num / den : ℚ) < 2 ^ ((num.log2 : Int) - den.log2 + 1) := by
  have hbelow {n : Nat} (h : n ≠ 0) : (2 : ℚ) ^ (n.log2 : Int) ≤ n := by
    exact_mod_cast Nat.log2_self_le h
  have habove (n : Nat) : (n : ℚ) < 2 ^ ((n.log2 : Int) + 1) := by
    exact_mod_cast @Nat.lt_log2_self n
  have hpos : (0 : ℚ) < den := by exact_mod_cast Nat.pos_of_ne_zero hden
  have htwo : (0 : ℚ) < 2 := two_pos
  constructor
  · rw [lt_div_iff₀ hpos]
    calc (2 : ℚ) ^ ((num.log2 : Int) - den.log2 - 1) * den
        < 2 ^ ((num.log2 : Int) - den.log2 - 1) * 2 ^ ((den.log2 : Int) + 1) :=
          mul_lt_mul_of_pos_left (habove den) (by positivity)
      _ = 2 ^ (num.log2 : Int) := by
          rw [← zpow_add₀ two_ne_zero]
          congr 1
          omega
      _ ≤ num := hbelow hnum
  · rw [div_lt_iff₀ hpos]
    calc (num : ℚ) < 2 ^ ((num.log2 : Int) + 1) := habove num
      _ = 2 ^ ((num.log2 : Int) - den.log2 + 1) * 2 ^ (den.log2 : Int) := by
          rw [← zpow_add₀ two_ne_zero]
          congr 1
          omega
      _ ≤ 2 ^ ((num.log2 : Int) - den.log2 + 1) * den :=
          mul_le_mul_of_nonneg_left (hbelow hden) (by positivity)

/-- Whether a quotient at an exponent falls short of all bits. -/
theorem scaled_div_lt_iff (num : Nat) (hden : den ≠ 0) (e : Int) :
    (scaled num den e).1 / (scaled num den e).2 < leastFull ↔ (num / den : ℚ) < value leastFull e := by
  have hpos := scaled_pos num (Nat.pos_of_ne_zero hden) e
  have hcast : (0 : ℚ) < (scaled num den e).2 := Nat.cast_pos.mpr hpos
  rw [Nat.div_lt_iff_lt_mul hpos, value, ← div_lt_iff₀ (by positivity), ← scaled_eq, div_lt_iff₀ hcast,
    ← Nat.cast_mul, Nat.cast_lt]

/-- The exponent that all bits need, if it is not too small. The first guess is right or one too great, and
    the quotient at it tells which. -/
theorem exponentFor_cases (hnum : num ≠ 0) (hden : den ≠ 0) :
    ∃ g : Int, exponentFor num den = max (-1074) g ∧ value leastFull g ≤ num / den ∧
      (num / den : ℚ) < value mantissaBound g := by
  obtain ⟨hlow, hhigh⟩ := quotient_bounds hnum hden
  have hdef : ∀ guess : Int, guess = (num.log2 : Int) - den.log2 - 52 → exponentFor num den =
      max (-1074) (if (scaled num den guess).1 / (scaled num den guess).2 < leastFull then guess - 1
        else guess) := by
    rintro _ rfl
    rfl
  obtain ⟨guess, hguess⟩ : ∃ guess : Int, guess = (num.log2 : Int) - den.log2 - 52 := ⟨_, rfl⟩
  rw [hdef guess hguess]
  by_cases hless : (scaled num den guess).1 / (scaled num den guess).2 < leastFull
  · refine ⟨guess - 1, by rw [if_pos hless], ?_, ?_⟩
    · rw [value_leastFull, show 52 + (guess - 1) = (num.log2 : Int) - den.log2 - 1 by omega]
      exact hlow.le
    · rw [← value_leastFull_succ, Int.sub_add_cancel]
      exact (scaled_div_lt_iff num hden guess).mp hless
  · refine ⟨guess, by rw [if_neg hless], not_lt.mp (mt (scaled_div_lt_iff num hden guess).mpr hless), ?_⟩
    rw [value_mantissaBound, show 53 + guess = (num.log2 : Int) - den.log2 + 1 by omega]
    exact hhigh

/-- The exponent leaves a quotient below the bound of mantissas, and not below those with all bits unless it
    is the smallest one. -/
theorem exponentFor_spec (hnum : num ≠ 0) (hden : den ≠ 0) :
    -1074 ≤ exponentFor num den ∧ (num / den : ℚ) < value mantissaBound (exponentFor num den) ∧
      (value leastFull (exponentFor num den) ≤ num / den ∨ exponentFor num den = -1074) := by
  obtain ⟨g, hg, hlow, hhigh⟩ := exponentFor_cases hnum hden
  refine ⟨by omega, hhigh.trans_le ?_, ?_⟩
  · rw [value_mantissaBound, value_mantissaBound]
    exact zpow_le_zpow_right₀ one_le_two (by omega)
  · by_cases hleast : g ≤ -1074
    · exact .inr (by omega)
    · left
      rwa [hg, max_eq_right (by omega)]

/-- The rounded mantissa of a quotient at its exponent. -/
def roundedAt (num den : Nat) (e : Int) : Nat := roundDiv (scaled num den e).1 (scaled num den e).2

/-- At its exponent a quotient is rounded to a number that no other number of the format is nearer to. -/
theorem roundedAt_closest (hden : den ≠ 0) (hhigh : (num / den : ℚ) < value mantissaBound e)
    (hlow : value leastFull e ≤ num / den ∨ e = -1074) :
    roundedAt num den e ≤ mantissaBound ∧ (leastFull ≤ roundedAt num den e ∨ e = -1074) ∧
      ∀ j f, InFormat j f →
        |(num : ℚ) / den - value (roundedAt num den e) e| ≤ |(num : ℚ) / den - value j f| ∧
        (value j f ≠ value (roundedAt num den e) e →
          |(num : ℚ) / den - value (roundedAt num den e) e| = |(num : ℚ) / den - value j f| →
          Even (roundedAt num den e)) := by
  have hunit : (0 : ℚ) < 2 ^ e := by positivity
  have hpos := scaled_pos num (Nat.pos_of_ne_zero hden) e
  have hscaled := scaled_eq num den e
  set q : ℚ := num / den with hq
  -- What is off by so much at the exponent is off by so many units.
  have herror : ∀ k : Nat, |q - value k e| = |q / 2 ^ e - k| * 2 ^ e := by
    intro k
    rw [← abs_of_pos hunit, ← abs_mul, abs_of_pos hunit, sub_mul, div_mul_cancel₀ _ hunit.ne', value]
  have hhalf := (roundDiv_spec (scaled num den e).1 hpos).1
  rw [hscaled, abs_le] at hhalf
  have hnearest : ∀ k : Nat, |q - value (roundedAt num den e) e| ≤ |q - value k e| ∧
      (k ≠ roundedAt num den e → |q - value (roundedAt num den e) e| = |q - value k e| →
        Even (roundedAt num den e)) := by
    intro k
    by_cases hk : k = roundedAt num den e
    · subst hk
      exact ⟨le_rfl, fun hne => absurd rfl hne⟩
    · obtain ⟨hle, heven⟩ := roundDiv_nearest (scaled num den e).1 hpos k hk
      rw [hscaled] at hle heven
      rw [herror, herror]
      exact ⟨mul_le_mul_of_nonneg_right hle hunit.le,
        fun _ htie => heven (mul_right_cancel₀ hunit.ne' htie)⟩
  have hround : roundedAt num den e = roundDiv (scaled num den e).1 (scaled num den e).2 := rfl
  rw [← hround] at hhalf
  have htop : q / 2 ^ e < mantissaBound := (div_lt_iff₀ hunit).mpr hhigh
  refine ⟨?_, ?_, fun j f hformat => ?_⟩
  · have hlt : (roundedAt num den e : ℚ) < mantissaBound + 1 := by linarith [hhalf.1]
    exact Nat.lt_succ_iff.mp (by exact_mod_cast hlt)
  · refine hlow.imp_left fun hlow => ?_
    have hfull : (leastFull : ℚ) ≤ q / 2 ^ e := (le_div_iff₀ hunit).mpr hlow
    have hlt : (leastFull : ℚ) < roundedAt num den e + 1 := by linarith [hhalf.2]
    exact Nat.lt_succ_iff.mp (by exact_mod_cast hlt)
  · by_cases hexponent : e ≤ f
    · rw [value_eq_of_le hexponent j]
      obtain ⟨hle, heven⟩ := hnearest (j * 2 ^ (f - e).toNat)
      exact ⟨hle, fun hne => heven fun heq => hne (by rw [heq])⟩
    · -- A number with a smaller exponent lies below the least one with all bits, which is nearer.
      have hbelow := value_lt_of_lt (not_le.mp hexponent) hformat.mantissa_lt
      have hfull : value leastFull e ≤ q := by
        refine hlow.resolve_right fun hleast => ?_
        have := hformat.least
        omega
      have hle := (hnearest leastFull).1
      rw [abs_of_nonneg (sub_nonneg.mpr hfull)] at hle
      have hj : |q - value j f| = q - value j f := abs_of_nonneg (by linarith)
      rw [hj]
      exact ⟨by linarith, fun _ htie => absurd htie (by linarith)⟩

/-- A quotient within the range of the format is rounded to the nearest number of the format. -/
theorem ofNatRatio_nearest (negative : Bool) (num : Nat) (hden : den ≠ 0)
    (hrange : (num / den : ℚ) < 2 ^ (1023 : Int)) :
    ∃ m e, ofNatRatio negative num den = .finite negative m e ∧ Nearest (num / den) m e := by
  by_cases hnum : num = 0
  · subst hnum
    refine ⟨0, -1074, by simp [ofNatRatio], ⟨by decide, by decide, by decide⟩, .inr rfl, fun j f _ => ?_,
      fun _ _ _ _ _ => Even.zero⟩
    simpa [value] using value_nonneg j f
  obtain ⟨hleast, hhigh, hlow⟩ := exponentFor_spec hnum hden
  obtain ⟨hbound, hfull, hclosest⟩ := roundedAt_closest hden hhigh hlow
  have hgreatest : exponentFor num den ≤ 970 := by
    by_contra hlarge
    have hlow := hlow.resolve_right (by omega)
    rw [value_leastFull] at hlow
    have hexponent := (zpow_lt_zpow_iff_right₀ one_lt_two).mp (hlow.trans_lt hrange)
    omega
  have hdef : ofNatRatio negative num den =
      let r := if roundedAt num den (exponentFor num den) = mantissaBound then
          (leastFull, exponentFor num den + 1)
        else (roundedAt num den (exponentFor num den), exponentFor num den)
      if 971 < r.2 then .infinite negative else .finite negative r.1 r.2 := by
    rw [ofNatRatio, if_neg (by simp [hnum, hden])]
    rfl
  by_cases hcarry : roundedAt num den (exponentFor num den) = mantissaBound
  · refine ⟨leastFull, exponentFor num den + 1, ?_, ⟨by decide, by omega, by omega⟩, .inl le_rfl, ?_,
      fun _ _ _ _ _ => ⟨2251799813685248, rfl⟩⟩
    · rw [hdef, if_pos hcarry]
      exact if_neg (by dsimp only; omega)
    · rw [value_leastFull_succ, ← hcarry]
      exact fun j f hformat => (hclosest j f hformat).1
  · refine ⟨_, _, ?_, ⟨lt_of_le_of_ne hbound hcarry, hleast, by omega⟩, hfull,
      fun j f hformat => (hclosest j f hformat).1, fun j f hformat => (hclosest j f hformat).2⟩
    rw [hdef, if_neg hcarry]
    exact if_neg (by dsimp only; omega)

namespace Nearest

/-- Rounding does not fall below a number of the format. -/
theorem le_of_le (h : Nearest x m e) (hformat : InFormat j f) (hle : value j f ≤ x) :
    value j f ≤ value m e := by
  by_contra hlt
  have hclosest := h.closest j f hformat
  rw [abs_of_nonneg (sub_nonneg.mpr hle), abs_of_nonneg (by linarith)] at hclosest
  linarith

/-- Rounding does not rise above a number of the format. -/
theorem ge_of_ge (h : Nearest x m e) (hformat : InFormat j f) (hle : x ≤ value j f) :
    value m e ≤ value j f := by
  by_contra hlt
  have hclosest := h.closest j f hformat
  rw [abs_sub_comm, abs_sub_comm x, abs_of_nonneg (by linarith), abs_of_nonneg (sub_nonneg.mpr hle)]
    at hclosest
  linarith

/-- Rounding keeps the order. -/
theorem mono (hx : Nearest x m e) (hy : Nearest y k f) (h : x < y) : value m e ≤ value k f := by
  by_contra hlt
  have hleft := hx.closest k f hy.inFormat
  have hright := hy.closest m e hx.inFormat
  -- Of two numbers in the wrong order, the middle lies above one value and below the other.
  have hmiddle : value k f + value m e ≤ 2 * x := by
    by_contra hbelow
    have : |x - value k f| < |x - value m e| := by
      rw [abs_lt, abs_of_neg (by linarith)]
      constructor <;> linarith
    linarith
  have hmiddle' : 2 * y ≤ value k f + value m e := by
    by_contra habove
    have : |y - value m e| < |y - value k f| := by
      rw [abs_lt, abs_of_pos (by linarith)]
      constructor <;> linarith
    linarith
  linarith

end Nearest

/-- The integer part is the greatest integer that is not above the value. -/
theorem wholePart_eq (m : Nat) (e : Int) : wholePart m e = ⌊value m e⌋₊ := by
  unfold wholePart value
  split
  · next he =>
    rw [← raise_two he, ← Nat.cast_mul, Nat.floor_natCast]
  · have hinv : (2 : ℚ) ^ e = 1 / (raise 2 (-e) : ℕ) := by
      rw [raise_two (by omega), zpow_neg, one_div, inv_inv]
    rw [hinv, mul_one_div, Nat.floor_div_natCast, Nat.floor_natCast]

theorem le_wholePart_iff : k ≤ wholePart m e ↔ (k : ℚ) ≤ value m e := by
  rw [wholePart_eq, Nat.le_floor_iff (value_nonneg m e)]

theorem wholePart_lt_iff : wholePart m e < k ↔ value m e < k := by
  rw [wholePart_eq, Nat.floor_lt (value_nonneg m e)]

end Worklog.Double
