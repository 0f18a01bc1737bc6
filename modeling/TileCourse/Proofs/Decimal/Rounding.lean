import Mathlib
import TileCourse.Decimal.Reading

/-!
# Rounding to a binary format

`roundRatio` is stated with natural numbers; here it is related to the rationals that patterns
stand for. It picks the nearest value whenever the ratio lies between two neighbours, so its
relative error is bounded by half a unit in the last place, and a ratio that is closer to a value
than to the middle of a gap is rounded to that value.
-/

namespace TileCourse.Decimal

/-- The number that a finite pattern stands for. -/
def Format.value (format : Format) (pattern : Nat) : ℚ :=
  (format.unpack pattern).1 * 2 ^ (format.unpack pattern).2

/-! ### Quotients -/

section Quotients

variable {num den : Nat}

/-- A quotient is its natural part and a rest that is less than one. -/
theorem quotient_eq (hden : 0 < den) :
    (num : ℚ) / den = (num / den : Nat) + ((num % den : Nat) : ℚ) / den := by
  have hden' : (den : ℚ) ≠ 0 := by exact_mod_cast hden.ne'
  rw [eq_comm, ← sub_eq_zero]
  field_simp
  have hdiv : ((den * (num / den) + num % den : Nat) : ℚ) = num := by rw [Nat.div_add_mod]
  push_cast at hdiv
  linarith

/-- A rounded quotient is at most a half away. -/
theorem round_quotient_near (num : Nat) (hden : 0 < den) :
    |(num : ℚ) / den - roundQuotient num den| ≤ 1 / 2 := by
  have hpos : (0 : ℚ) < den := by exact_mod_cast hden
  have hlt : (num % den : Nat) < den := Nat.mod_lt num hden
  rw [quotient_eq hden, roundQuotient]
  by_cases hup : 2 * (num % den) > den ∨ (2 * (num % den) = den ∧ num / den % 2 = 1)
  · have hhalf : (1 : ℚ) / 2 ≤ ((num % den : Nat) : ℚ) / den := by
      rw [div_le_div_iff₀ (by norm_num) hpos]
      exact_mod_cast (by omega : 1 * den ≤ (num % den) * 2)
    have hone : ((num % den : Nat) : ℚ) / den < 1 := by
      rw [div_lt_one hpos]
      exact_mod_cast hlt
    simp only [hup, if_true]
    rw [abs_le]
    push_cast
    constructor <;> linarith
  · have hhalf : ((num % den : Nat) : ℚ) / den ≤ 1 / 2 := by
      rw [div_le_div_iff₀ hpos (by norm_num)]
      exact_mod_cast (by omega : (num % den) * 2 ≤ 1 * den)
    have hzero : (0 : ℚ) ≤ ((num % den : Nat) : ℚ) / den := by positivity
    simp only [hup, if_false]
    rw [abs_le]
    constructor <;> linarith

/-- Just between two naturals the even one is taken. -/
theorem even_of_tie (h : 2 * (num % den) = den) : roundQuotient num den % 2 = 0 := by
  rw [roundQuotient]
  simp only [h, Nat.lt_irrefl, gt_iff_lt, true_and, false_or]
  split <;> omega

/-- A quotient that is a half away from a natural lies just between two. -/
theorem tie_of_half {r : Nat} (hden : 0 < den) (h : |(num : ℚ) / den - r| = 1 / 2) :
    2 * (num % den) = den := by
  have hpos : (0 : ℚ) < den := by exact_mod_cast hden
  have hlow : (0 : ℚ) ≤ ((num % den : Nat) : ℚ) / den := by positivity
  have hhigh : ((num % den : Nat) : ℚ) / den < 1 := by
    rw [div_lt_one hpos]
    exact_mod_cast Nat.mod_lt num hden
  have hrest : ((num % den : Nat) : ℚ) / den = 1 / 2 := by
    rw [quotient_eq hden] at h
    rcases eq_or_eq_neg_of_abs_eq h with heq | heq
    · have hup : ((num / den : Nat) : ℚ) < r + 1 := by linarith
      have hdown : (r : ℚ) < (num / den : Nat) + 1 := by linarith
      have heqr : num / den = r := by
        have hup' : num / den < r + 1 := by exact_mod_cast hup
        have hdown' : r < num / den + 1 := by exact_mod_cast hdown
        omega
      rw [heqr] at heq
      linarith
    · have hup : ((num / den : Nat) : ℚ) < r := by linarith
      have hdown : (r : ℚ) < (num / den : Nat) + 2 := by linarith
      have heqr : r = num / den + 1 := by
        have hup' : num / den < r := by exact_mod_cast hup
        have hdown' : r < num / den + 2 := by exact_mod_cast hdown
        omega
      rw [heqr] at heq
      push_cast at heq
      linarith
  rw [div_eq_div_iff hpos.ne' (by norm_num)] at hrest
  have hnat : (num % den) * 2 = 1 * den := by exact_mod_cast hrest
  omega

/-- A quotient is rounded to the natural that it is nearest to. -/
theorem round_quotient_eq {r : Nat} (hden : 0 < den)
    (h : |(num : ℚ) / den - r| < 1 / 2 ∨ |(num : ℚ) / den - r| = 1 / 2 ∧ r % 2 = 0) :
    roundQuotient num den = r := by
  have hnear := abs_le.1 (round_quotient_near num hden)
  rcases h with hlt | ⟨htie, heven⟩
  · have hr := abs_lt.1 hlt
    have hup : (roundQuotient num den : ℚ) < r + 1 := by linarith
    have hdown : (r : ℚ) < roundQuotient num den + 1 := by linarith
    have hup' : roundQuotient num den < r + 1 := by exact_mod_cast hup
    have hdown' : r < roundQuotient num den + 1 := by exact_mod_cast hdown
    omega
  · have hr := abs_le.1 htie.le
    have hup : (roundQuotient num den : ℚ) ≤ r + 1 := by linarith
    have hdown : (r : ℚ) ≤ roundQuotient num den + 1 := by linarith
    have hup' : roundQuotient num den ≤ r + 1 := by exact_mod_cast hup
    have hdown' : r ≤ roundQuotient num den + 1 := by exact_mod_cast hdown
    have hchosen := even_of_tie (tie_of_half hden htie)
    omega

end Quotients

/-! ### The exponent of a result -/

section Ratios

variable {format : Format} {num den : Nat} {exponent : Int}

/-- A shifted ratio has a positive denominator. -/
theorem shifted_ratio_pos (num : Nat) (hden : 0 < den) (exponent : Int) :
    0 < (shiftedRatio num den exponent).2 := by
  unfold shiftedRatio
  split
  · exact hden
  · rw [Nat.shiftLeft_eq]
    positivity

/-- Shifting a ratio divides it by a power of two. -/
theorem shifted_ratio_eq (num den : Nat) (exponent : Int) :
    ((shiftedRatio num den exponent).1 : ℚ) / (shiftedRatio num den exponent).2 =
      num / den / 2 ^ exponent := by
  unfold shiftedRatio
  split
  · rename_i hneg
    have hpower : (2 : ℚ) ^ exponent = ((2 : ℚ) ^ (-exponent).toNat)⁻¹ := by
      rw [← zpow_natCast, ← zpow_neg]
      congr 1
      omega
    rw [hpower, Nat.shiftLeft_eq]
    push_cast
    rw [div_inv_eq_mul, div_mul_eq_mul_div]
  · rename_i hpos
    have hpower : (2 : ℚ) ^ exponent = (2 : ℚ) ^ exponent.toNat := by
      rw [← zpow_natCast]
      congr 1
      omega
    rw [hpower, Nat.shiftLeft_eq]
    push_cast
    rw [div_div]

/-- Whether a ratio fits the format at an exponent shows in its natural part. -/
theorem shifted_ratio_lt_iff (num : Nat) (hden : 0 < den) (exponent : Int) (bits : Nat) :
    (shiftedRatio num den exponent).1 / (shiftedRatio num den exponent).2 < 1 <<< bits ↔
      (num : ℚ) / den < 2 ^ (bits + exponent) := by
  rw [Nat.one_shiftLeft]
  have hpos := shifted_ratio_pos num hden exponent
  have hpower : (0 : ℚ) < 2 ^ exponent := by positivity
  rw [Nat.div_lt_iff_lt_mul hpos, zpow_add₀ two_ne_zero, zpow_natCast, ← div_lt_iff₀ hpower,
    ← shifted_ratio_eq, div_lt_iff₀ (by exact_mod_cast hpos)]
  exact_mod_cast Iff.rfl

/-- The binary logarithms of both parts say roughly how large a ratio is. -/
theorem ratio_bounds (hnum : 0 < num) (hden : 0 < den) :
    (2 : ℚ) ^ ((num.log2 : Int) - den.log2 - 1) < num / den ∧
      (num : ℚ) / den < 2 ^ ((num.log2 : Int) - den.log2 + 1) := by
  have hbounds {n : Nat} (h : 0 < n) : (2 : ℚ) ^ (n.log2 : Int) ≤ n ∧
      (n : ℚ) < 2 ^ ((n.log2 : Int) + 1) := by
    constructor
    · rw [zpow_natCast]
      exact_mod_cast Nat.log2_self_le h.ne'
    · rw [← Nat.cast_succ, zpow_natCast]
      exact_mod_cast Nat.lt_log2_self
  obtain ⟨hnumlow, hnumhigh⟩ := hbounds hnum
  obtain ⟨hdenlow, hdenhigh⟩ := hbounds hden
  have hpos : (0 : ℚ) < den := by exact_mod_cast hden
  constructor
  · rw [lt_div_iff₀ hpos]
    calc (2 : ℚ) ^ ((num.log2 : Int) - den.log2 - 1) * den
        < 2 ^ ((num.log2 : Int) - den.log2 - 1) * 2 ^ ((den.log2 : Int) + 1) := by gcongr
      _ = 2 ^ (num.log2 : Int) := by
        rw [← zpow_add₀ two_ne_zero]
        congr 1
        omega
      _ ≤ num := hnumlow
  · rw [div_lt_iff₀ hpos]
    calc (num : ℚ) < 2 ^ ((num.log2 : Int) + 1) := hnumhigh
      _ = 2 ^ ((num.log2 : Int) - den.log2 + 1) * 2 ^ (den.log2 : Int) := by
        rw [← zpow_add₀ two_ne_zero]
        congr 1
        omega
      _ ≤ 2 ^ ((num.log2 : Int) - den.log2 + 1) * den := by gcongr

/-- An exponent at which a ratio just fits the format: it fits, and it would not fit any less unless
there is no smaller exponent. -/
structure Format.Suits (format : Format) (ratio : ℚ) (exponent : Int) : Prop where
  least : format.least ≤ exponent
  high : ratio < 2 ^ (format.precision + exponent)
  low : exponent = format.least ∨ 2 ^ (format.precision + exponent - 1) ≤ ratio

/-- A ratio is rounded to a multiple of the power of two that suits it. -/
theorem round_ratio_eq (hnum : 0 < num) (hden : 0 < den)
    (h : format.Suits ((num : ℚ) / den) exponent) :
    roundRatio format num den = min (format.pattern (roundQuotient
      (shiftedRatio num den exponent).1 (shiftedRatio num den exponent).2) exponent)
        format.infinity := by
  obtain ⟨hlow, hhigh⟩ := ratio_bounds hnum hden
  have hguess : (num.log2 : Int) - den.log2 - format.precision ≤ exponent := by
    have := (zpow_lt_zpow_iff_right₀ one_lt_two).1 (hlow.trans h.high)
    omega
  have hnear : exponent = format.least ∨
      exponent ≤ (num.log2 : Int) - den.log2 - format.precision + 1 := by
    refine h.low.imp_right fun hsmall => ?_
    have := (zpow_lt_zpow_iff_right₀ one_lt_two).1 (hsmall.trans_lt hhigh)
    omega
  have hchoice (low : Int) (hlow : low = max format.least
      ((num.log2 : Int) - den.log2 - format.precision)) :
      (if (shiftedRatio num den low).1 / (shiftedRatio num den low).2 < 1 <<< format.precision
        then low else low + 1) = exponent := by
    have hleast := h.least
    rcases eq_or_ne low exponent with rfl | hne
    · rw [if_pos ((shifted_ratio_lt_iff num hden _ _).2 h.high)]
    · have hnext : exponent = low + 1 := by omega
      rcases h.low with heq | hsmall
      · omega
      · have hshift : (format.precision : Int) + exponent - 1 = format.precision + low := by omega
        rw [hshift] at hsmall
        rw [if_neg (by rwa [shifted_ratio_lt_iff num hden, not_lt]), hnext]
  rw [roundRatio, if_neg hnum.ne']
  simp only
  rw [hchoice _ rfl]

end Ratios

/-! ### Patterns -/

namespace Format

variable {format : Format} {significand : Nat} {exponent : Int}

/-- The values of one exponent are as many as the digits after the first one tell apart. -/
theorem binade_eq (format : Format) : format.binade = 2 ^ (format.precision - 1) :=
  Nat.one_shiftLeft _

/-- Every exponent has values. -/
theorem binade_pos (format : Format) : 0 < format.binade := by
  rw [binade_eq]
  exact Nat.two_pow_pos _

/-- A pattern is that of its significand and exponent. -/
theorem pattern_unpack (format : Format) (pattern : Nat) :
    format.pattern (format.unpack pattern).1 (format.unpack pattern).2 = pattern := by
  unfold unpack
  simp only
  split
  · simp [Format.pattern]
  · rename_i hfield
    obtain ⟨k, hk⟩ := Nat.exists_eq_succ_of_ne_zero hfield
    have hdiv := Nat.div_add_mod pattern format.binade
    rw [hk, Nat.mul_succ, Nat.mul_comm] at hdiv
    have hexponent : (format.least + (k.succ : Nat) - 1 - format.least).toNat = k := by omega
    simp only [Format.pattern, hk, hexponent]
    omega

/-- The significand of a pattern fits the format, and it fills it unless the exponent is the least
one. -/
theorem unpack_bounds (format : Format) (pattern : Nat) :
    (format.unpack pattern).1 < 2 * format.binade ∧
      format.least ≤ (format.unpack pattern).2 ∧
      ((format.unpack pattern).2 = format.least ∨ format.binade ≤ (format.unpack pattern).1) := by
  have hpos := format.binade_pos
  have hmod := Nat.mod_lt pattern hpos
  unfold unpack
  simp only
  split
  · rename_i hfield
    have hlt := (Nat.div_eq_zero_iff_lt hpos).1 hfield
    exact ⟨by omega, le_refl _, .inl rfl⟩
  · rename_i hfield
    obtain ⟨k, hk⟩ := Nat.exists_eq_succ_of_ne_zero hfield
    rw [hk]
    exact ⟨by omega, by omega, .inr (by omega)⟩

/-- What the pattern of a significand and an exponent stands for. A significand that just does not
fit is that of the next exponent. -/
theorem value_pattern (hleast : format.least ≤ exponent) (hfits : significand ≤ 2 * format.binade)
    (hfills : exponent = format.least ∨ format.binade ≤ significand) :
    format.value (format.pattern significand exponent) = significand * 2 ^ exponent := by
  have hpos := format.binade_pos
  obtain ⟨k, hk⟩ := Int.eq_ofNat_of_zero_le (Int.sub_nonneg.2 hleast)
  have hexponent : exponent = format.least + k := by omega
  have hpattern : format.pattern significand exponent = significand + format.binade * k := by
    rw [Format.pattern, hk, Int.toNat_natCast, Nat.mul_comm, Nat.add_comm]
  have hdiv : (significand + format.binade * k) / format.binade =
      significand / format.binade + k := Nat.add_mul_div_left _ _ hpos
  rw [value, unpack, hpattern]
  simp only [hdiv, Nat.add_mul_mod_self_left]
  rcases lt_or_ge significand format.binade with hlt | hge
  · have hzero : k = 0 := by
      rcases hfills with hleast' | hge
      · omega
      · omega
    rw [Nat.div_eq_of_lt hlt, hzero, hexponent, hzero]
    simp
  · rcases lt_or_eq_of_le hfits with hlt | heq
    · have hone : significand / format.binade = 1 :=
        Nat.div_eq_of_lt_le (by omega) (by omega)
      have hrest : format.binade + significand % format.binade = significand := by
        have := Nat.div_add_mod significand format.binade
        rw [hone] at this
        omega
      rw [hone, if_neg (by omega), hrest, hexponent]
      congr 2
      omega
    · have htwo : significand / format.binade = 2 := by
        rw [heq]
        exact Nat.mul_div_cancel 2 hpos
      have hzero : significand % format.binade = 0 := by
        rw [heq]
        exact Nat.mul_mod_left 2 _
      rw [htwo, if_neg (by omega), hzero, heq, hexponent]
      have hnext : format.least + ((2 + k : Nat) : Int) - 1 = format.least + k + 1 := by omega
      rw [hnext, zpow_add₀ two_ne_zero]
      push_cast
      ring

end Format

/-! ### Two kinds of results -/

section Results

variable {format : Format} {num den : Nat}

/-- The exponent that suits a ratio in the normal range. -/
theorem Format.exists_suits {ratio : ℚ}
    (hlow : (2 : ℚ) ^ (format.least + format.precision - 1) ≤ ratio) :
    ∃ e, format.Suits ratio e ∧ (2 : ℚ) ^ (format.precision + e - 1) ≤ ratio := by
  have hpos : 0 < ratio := lt_of_lt_of_le (by positivity) hlow
  obtain ⟨n, hfloor, hceil⟩ := exists_mem_Ico_zpow hpos (one_lt_two (α := ℚ))
  obtain ⟨e, rfl⟩ : ∃ e : Int, n = format.precision + e - 1 :=
    ⟨n - format.precision + 1, by omega⟩
  have hleast := (zpow_lt_zpow_iff_right₀ one_lt_two).1 (hlow.trans_lt hceil)
  rw [show (format.precision : Int) + e - 1 + 1 = format.precision + e by omega] at hceil
  exact ⟨e, ⟨by omega, hceil, .inr hfloor⟩, hfloor⟩

/-- A ratio is rounded to a significand that is at most a half away. -/
theorem exists_significand (hnum : 0 < num) (hden : 0 < den) {e : Int}
    (h : format.Suits ((num : ℚ) / den) e) :
    ∃ r : Nat, roundRatio format num den = min (format.pattern r e) format.infinity ∧
      |(num : ℚ) / den / 2 ^ e - r| ≤ 1 / 2 := by
  refine ⟨_, round_ratio_eq hnum hden h, ?_⟩
  rw [← shifted_ratio_eq]
  exact round_quotient_near _ (shifted_ratio_pos num hden e)

/-- The precision has one digit more than it takes to tell the values of one exponent apart. -/
theorem Format.two_pow_precision (hprecision : 0 < format.precision) :
    (2 : ℚ) ^ format.precision = 2 * format.binade := by
  rw [Format.binade_eq, ← Nat.sub_add_cancel hprecision, pow_succ]
  push_cast
  simp [mul_comm]

/-- The nearest significand to a quotient between two powers of two lies between them. -/
theorem significand_bounds {binade r : Nat} {x : ℚ} (hnear : |x - r| ≤ 1 / 2)
    (hlow : (binade : ℚ) ≤ x) (hhigh : x < 2 * binade) : binade ≤ r ∧ r ≤ 2 * binade := by
  obtain ⟨hbelow, habove⟩ := abs_le.1 hnear
  constructor
  · have : (binade : ℚ) < r + 1 := by linarith
    exact Nat.lt_succ_iff.1 (by exact_mod_cast this)
  · have : (r : ℚ) < (2 * binade : Nat) + 1 := by
      push_cast
      linarith
    exact Nat.lt_succ_iff.1 (by exact_mod_cast this)

/-- A significand of the right size makes a finite pattern as long as the exponent is not the
greatest one. -/
theorem Format.pattern_lt_infinity {significand : Nat} {exponent : Int}
    (hleast : format.least ≤ exponent) (hgreatest : exponent < format.greatest)
    (hfits : significand ≤ 2 * format.binade) :
    format.pattern significand exponent < format.infinity := by
  obtain ⟨k, hk⟩ := Int.eq_ofNat_of_zero_le (Int.sub_nonneg.2 hleast)
  have hk' : k + 3 ≤ (format.greatest - format.least + 2).toNat := by omega
  have hpos := format.binade_pos
  rw [Format.pattern, Format.infinity, hk, Int.toNat_natCast]
  calc k * format.binade + significand < (k + 3) * format.binade := by linarith
    _ ≤ _ := Nat.mul_le_mul_right _ hk'

/-- An error of at most half a unit is small next to a significand of full length. -/
theorem scaled_error_le {binade r : Nat} {x unit : ℚ} (hnear : |x - r| ≤ 1 / 2)
    (hpos : 0 < binade) (hlow : (binade : ℚ) ≤ x) (hunit : 0 < unit) :
    |r * unit - x * unit| ≤ x * unit / (2 * binade) := by
  have hbinade : (0 : ℚ) < binade := by exact_mod_cast hpos
  have hhalf : 1 / 2 ≤ x / (2 * binade) := by
    rw [le_div_iff₀ (by positivity)]
    linarith
  calc |r * unit - x * unit| = |x - r| * unit := by
        rw [← sub_mul, abs_mul, abs_of_pos hunit, abs_sub_comm]
    _ ≤ 1 / 2 * unit := by gcongr
    _ ≤ x / (2 * binade) * unit := mul_le_mul_of_nonneg_right hhalf hunit.le
    _ = x * unit / (2 * binade) := by ring

/-- A ratio in the normal range is rounded with an error of at most half a unit in the last place,
to a finite pattern. -/
theorem round_ratio_near (hprecision : 0 < format.precision) (hnum : 0 < num) (hden : 0 < den)
    (hlow : (2 : ℚ) ^ (format.least + format.precision - 1) ≤ num / den)
    (hhigh : (num : ℚ) / den < 2 ^ (format.greatest + format.precision - 1)) :
    |format.value (roundRatio format num den) - num / den| ≤
        num / den / 2 ^ format.precision ∧
      roundRatio format num den < format.infinity := by
  obtain ⟨e, hsuits, hfloor⟩ := format.exists_suits hlow
  obtain ⟨r, hround, hnear⟩ := exists_significand hnum hden hsuits
  have hunit : (0 : ℚ) < 2 ^ e := by positivity
  have hpower := Format.two_pow_precision hprecision
  have hceil := hsuits.high
  have hgreatest : e < format.greatest := by
    have := (zpow_lt_zpow_iff_right₀ one_lt_two).1 (hfloor.trans_lt hhigh)
    omega
  rw [zpow_sub_one₀ two_ne_zero, zpow_add₀ two_ne_zero, zpow_natCast, hpower] at hfloor
  rw [zpow_add₀ two_ne_zero, zpow_natCast, hpower, ← div_lt_iff₀ hunit] at hceil
  have hfloor' : (format.binade : ℚ) ≤ num / den / 2 ^ e := by
    rw [le_div_iff₀ hunit]
    linarith
  obtain ⟨hfills, hfits⟩ := significand_bounds hnear hfloor' hceil
  have hfinite := Format.pattern_lt_infinity hsuits.least hgreatest hfits
  rw [hround, min_eq_left hfinite.le, Format.value_pattern hsuits.least hfits (.inr hfills)]
  refine ⟨?_, hfinite⟩
  have herror := scaled_error_le hnear format.binade_pos hfloor' hunit
  rwa [div_mul_cancel₀ _ hunit.ne', ← hpower] at herror

/-- A ratio that is less than half a unit away from a value is rounded to its pattern; so is one
that is just half a unit away, if the significand is even. The value must not be a power of two,
below which the units are smaller. -/
theorem round_ratio_eq_pattern {pattern : Nat} (hprecision : 0 < format.precision)
    (hnum : 0 < num) (hden : 0 < den) (hfinite : pattern < format.infinity)
    (hpower : (format.unpack pattern).2 = format.least ∨
      format.binade < (format.unpack pattern).1)
    (h : |(num : ℚ) / den / 2 ^ (format.unpack pattern).2 - (format.unpack pattern).1| < 1 / 2 ∨
      |(num : ℚ) / den / 2 ^ (format.unpack pattern).2 - (format.unpack pattern).1| = 1 / 2 ∧
        (format.unpack pattern).1 % 2 = 0) :
    roundRatio format num den = pattern := by
  obtain ⟨hfits, hleast, -⟩ := format.unpack_bounds pattern
  have hpattern := format.pattern_unpack pattern
  generalize (format.unpack pattern).1 = s at *
  generalize (format.unpack pattern).2 = e at *
  have hunit : (0 : ℚ) < 2 ^ e := by positivity
  have hclose : |(num : ℚ) / den / 2 ^ e - s| ≤ 1 / 2 := by
    rcases h with h | h
    · exact h.le
    · exact h.1.le
  have hsuits : format.Suits ((num : ℚ) / den) e := by
    refine ⟨hleast, ?_, hpower.imp_right fun hs => ?_⟩
    · rw [zpow_add₀ two_ne_zero, zpow_natCast, Format.two_pow_precision hprecision,
        ← div_lt_iff₀ hunit]
      have hs : (s : ℚ) + 1 ≤ 2 * format.binade := by exact_mod_cast hfits
      linarith [(abs_le.1 hclose).2]
    · rw [zpow_sub_one₀ two_ne_zero, zpow_add₀ two_ne_zero, zpow_natCast,
        Format.two_pow_precision hprecision]
      have hs : (format.binade : ℚ) + 1 ≤ s := by exact_mod_cast hs
      have hx : (format.binade : ℚ) ≤ num / den / 2 ^ e := by linarith [(abs_le.1 hclose).1]
      rw [le_div_iff₀ hunit] at hx
      linarith
  rw [round_ratio_eq hnum hden hsuits,
    round_quotient_eq (shifted_ratio_pos num hden e) (by rwa [shifted_ratio_eq]), hpattern,
    min_eq_left hfinite.le]

end Results

end TileCourse.Decimal
