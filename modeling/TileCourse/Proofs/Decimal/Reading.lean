import TileCourse.Proofs.Decimal.Rounding

/-!
# Errors of reading

A decimal is read in three steps that round: its digits, the power of ten, and their quotient. Each
adds at most half a unit in the last place, so what is read is near to what is written.
-/

namespace TileCourse.Decimal

/-- A value is the quotient that it is taken apart into. -/
theorem pattern_ratio_eq (pattern : Nat) :
    ((patternRatio pattern).1 : ℚ) / (patternRatio pattern).2 = Format.double.value pattern := by
  unfold patternRatio
  simp only
  rw [shifted_ratio_eq, zpow_neg, div_inv_eq_mul, Nat.cast_one, div_one]
  rfl

/-- The ratio of a pattern has a positive denominator. -/
theorem pattern_ratio_pos (pattern : Nat) : 0 < (patternRatio pattern).2 :=
  shifted_ratio_pos _ one_pos _

/-- Where rounding to double precision leads. -/
structure Near (pattern : Nat) (ratio : ℚ) : Prop where
  low : ratio * (1 - 1 / 2 ^ 53) ≤ Format.double.value pattern
  high : Format.double.value pattern ≤ ratio * (1 + 1 / 2 ^ 53)
  finite : pattern < Format.double.infinity

/-- Rounding a ratio that is neither tiny nor huge leads near it. -/
theorem near_of_round {num den : Nat} (hden : 0 < den)
    (hlow : (2 : ℚ) ^ (-200 : Int) ≤ num / den) (hhigh : (num : ℚ) / den ≤ 2 ^ (200 : Int)) :
    Near (roundRatio .double num den) (num / den) := by
  have hnum : 0 < num := by
    rcases Nat.eq_zero_or_pos num with rfl | hpos
    · rw [Nat.cast_zero, zero_div] at hlow
      exact absurd hlow (not_le.2 (by positivity))
    · exact hpos
  have hleast : (2 : ℚ) ^ (Format.double.least + Format.double.precision - 1) ≤ 2 ^ (-200 : Int) :=
    zpow_le_zpow_right₀ one_le_two (by decide)
  have hgreatest : (2 : ℚ) ^ (200 : Int) <
      2 ^ (Format.double.greatest + Format.double.precision - 1) :=
    zpow_lt_zpow_right₀ one_lt_two (by decide)
  obtain ⟨hnear, hfinite⟩ := round_ratio_near (by decide) hnum hden (hleast.trans hlow)
    (hhigh.trans_lt hgreatest)
  have hbounds := abs_le.1 hnear
  have hprecision : Format.double.precision = 53 := rfl
  rw [hprecision] at hbounds
  exact ⟨by linarith [hbounds.1], by linarith [hbounds.2], hfinite⟩

/-- The quotient by a power of ten is rounded once more. -/
theorem near_over_power {pattern n : Nat} {x : ℚ} (hx : Format.double.value pattern = x)
    (hpower : 0 < Format.double.value (powerOfTen n))
    (hlow : (2 : ℚ) ^ (-200 : Int) ≤ x / Format.double.value (powerOfTen n))
    (hhigh : x / Format.double.value (powerOfTen n) ≤ 2 ^ (200 : Int)) :
    Near (overPower pattern n) (x / Format.double.value (powerOfTen n)) := by
  have hratio : x / Format.double.value (powerOfTen n) =
      (((patternRatio pattern).1 * (patternRatio (powerOfTen n)).2 : Nat) : ℚ) /
        ((patternRatio pattern).2 * (patternRatio (powerOfTen n)).1 : Nat) := by
    rw [← hx, ← pattern_ratio_eq, ← pattern_ratio_eq, div_div_div_eq]
    push_cast
    rfl
  have hpos : 0 < (patternRatio (powerOfTen n)).1 := by
    refine Nat.pos_of_ne_zero fun hzero => hpower.ne' ?_
    rw [← pattern_ratio_eq, hzero, Nat.cast_zero, zero_div]
  rw [hratio] at hlow hhigh ⊢
  exact near_of_round (Nat.mul_pos (pattern_ratio_pos pattern) hpos) hlow hhigh

/-- Errors of three steps add up to less than four single ones. -/
theorem three_errors {u c t x p v : ℚ} (hu : 0 < u) (husmall : u ≤ 1 / 8) (hc : 0 < c) (ht : 0 < t)
    (hxlow : c * (1 - u) ≤ x) (hxhigh : x ≤ c * (1 + u)) (hplow : t * (1 - u) ≤ p)
    (hphigh : p ≤ t * (1 + u)) (hvlow : x / p * (1 - u) ≤ v) (hvhigh : v ≤ x / p * (1 + u)) :
    c * (1 - 4 * u) ≤ v * t ∧ v * t ≤ c * (1 + 4 * u) := by
  have hdown : 0 < 1 - u := by linarith
  have hup : 0 < 1 + u := by linarith
  have hp : 0 < p := lt_of_lt_of_le (by positivity) hplow
  have hx : x / p * p = x := div_mul_cancel₀ x hp.ne'
  have hq : 0 < x / p := div_pos (lt_of_lt_of_le (by positivity) hxlow) hp
  generalize x / p = q at hx hq hvlow hvhigh
  constructor
  · refine le_of_mul_le_mul_right ?_ hup
    calc c * (1 - 4 * u) * (1 + u) ≤ c * (1 - u) * (1 - u) := by nlinarith [mul_pos hc hu]
      _ ≤ x * (1 - u) := by gcongr
      _ = q * p * (1 - u) := by rw [hx]
      _ ≤ q * (t * (1 + u)) * (1 - u) := by gcongr
      _ = q * (1 - u) * t * (1 + u) := by ring
      _ ≤ v * t * (1 + u) := by gcongr
  · refine le_of_mul_le_mul_right ?_ hdown
    calc v * t * (1 - u) ≤ q * (1 + u) * t * (1 - u) := by gcongr
      _ = q * (t * (1 - u)) * (1 + u) := by ring
      _ ≤ q * p * (1 + u) := by gcongr
      _ = x * (1 + u) := by rw [hx]
      _ ≤ c * (1 + u) * (1 + u) := by gcongr
      _ ≤ c * (1 + 4 * u) * (1 - u) := by nlinarith [mul_pos hc hu]

/-- A decimal of few digits is read with an error of at most two units in the last place. -/
theorem over_power_near {c n : Nat} (hc : 0 < c) (hfew : c < 2 ^ 53) (hn : n ≤ 46) :
    overPower (roundRatio .double c 1) n < Format.double.infinity ∧
      (c : ℚ) * (1 - 1 / 2 ^ 51) ≤
        Format.double.value (overPower (roundRatio .double c 1) n) * 10 ^ n ∧
      Format.double.value (overPower (roundRatio .double c 1) n) * 10 ^ n ≤
        c * (1 + 1 / 2 ^ 51) := by
  have hone : (1 : ℚ) ≤ c := by exact_mod_cast hc
  have hsmall : (c : ℚ) < 2 ^ 53 := by exact_mod_cast hfew
  have hpower : (1 : ℚ) ≤ 10 ^ n := one_le_pow₀ (by norm_num)
  have hpower' : (10 : ℚ) ^ n ≤ 10 ^ 46 := pow_le_pow_right₀ (by norm_num) hn
  have hdigits : Near (roundRatio .double c 1) c := by
    have h : Near (roundRatio .double c 1) ((c : ℚ) / (1 : Nat)) :=
      near_of_round one_pos (by norm_num; linarith) (by norm_num; linarith)
    rwa [Nat.cast_one, div_one] at h
  have hten : Near (powerOfTen n) (10 ^ n) := by
    have h : Near (powerOfTen n) (((10 ^ n : Nat) : ℚ) / (1 : Nat)) :=
      near_of_round one_pos (by push_cast; norm_num; linarith) (by push_cast; norm_num; linarith)
    rw [Nat.cast_one, div_one] at h
    exact_mod_cast h
  obtain ⟨hxlow, hxhigh, -⟩ := hdigits
  obtain ⟨hplow, hphigh, -⟩ := hten
  have hppos : 0 < Format.double.value (powerOfTen n) :=
    lt_of_lt_of_le (by norm_num) hplow
  have hquotient : Near (overPower (roundRatio .double c 1) n)
      (Format.double.value (roundRatio .double c 1) / Format.double.value (powerOfTen n)) := by
    refine near_over_power rfl hppos ?_ ?_
    · rw [le_div_iff₀ hppos]
      norm_num at hxlow hphigh ⊢
      linarith
    · rw [div_le_iff₀ hppos]
      norm_num at hxhigh hplow ⊢
      linarith
  refine ⟨hquotient.finite, ?_⟩
  have h := three_errors (by norm_num) (by norm_num) (by linarith) (by linarith) hxlow hxhigh hplow
    hphigh hquotient.low hquotient.high
  norm_num at h ⊢
  exact h

end TileCourse.Decimal
