import TileCourse.Proofs.Decimal.Reading
import TileCourse.Proofs.Decimal.Shortest

/-!
# Decimals between two values

A decimal is read in double precision before it is rounded to single precision, and the small error
of the first step matters only for a decimal that lies almost in the middle between two values. Such
a decimal makes a quotient of two powers that is approximated unusually well by a fraction with a
small denominator. For every exponent a convergent of the quotient shows that there are hardly any;
the few that there are can be tried out.
-/

namespace TileCourse.Decimal

/-- The pattern in single precision that is nearest to a pattern in double precision. -/
def narrow (pattern : Nat) : Nat :=
  let (significand, exponent) := Format.double.unpack pattern
  let (den, num) := shiftedRatio 1 significand exponent
  roundRatio .single num den

/-- The pattern that a pattern becomes when it is written and read. -/
def readBack (pattern : Nat) : Nat :=
  narrow (overPower (roundRatio .double (shortest .single pattern).digits 1)
    (-(shortest .single pattern).exponent).toNat)

/-! ### Good fractions -/

/-- The convergents of `a / b`, after two of them. -/
def convergents : (fuel a b : Nat) → (before last : Nat × Nat) → List (Nat × Nat)
  | 0, _, _, _, _ => []
  | fuel + 1, a, b, before, last =>
    if b = 0 then []
    else
      let next := (a / b * last.1 + before.1, a / b * last.2 + before.2)
      next :: convergents fuel b (a % b) last next

/-- How far a fraction is from `a / b`, in units of the product of the denominators. -/
def gap (a b : Nat) (fraction : Nat × Nat) : Nat :=
  ((fraction.2 * a : Nat) - (fraction.1 * b : Nat) : Int).natAbs

/-- A fraction is so near to `a / b` that no other fraction with a denominator up to `most` is near,
but for its own multiples. -/
def Isolates (a b most : Nat) (fraction : Nat × Nat) : Prop :=
  0 < fraction.2 ∧ Nat.gcd fraction.1 fraction.2 = 1 ∧
    most * gap a b fraction * 2 ^ 26 + fraction.2 * b ≤ b * 2 ^ 26

instance (a b most : Nat) (fraction : Nat × Nat) : Decidable (Isolates a b most fraction) :=
  inferInstanceAs (Decidable (_ ∧ _ ∧ _))

section Near

variable {a b most m c : Nat} {fraction : Nat × Nat}

/-- Two fractions are no further apart than both are from `a / b` together. -/
theorem cross_le_gaps (a b m c : Nat) (fraction : Nat × Nat) :
    b * ((fraction.2 * m : Nat) - (c * fraction.1 : Nat) : Int).natAbs ≤
      c * gap a b fraction + fraction.2 * gap a b (m, c) := by
  obtain ⟨p, q⟩ := fraction
  have hsplit : (b : Int) * ((q * m : Nat) - (c * p : Nat)) =
      c * ((q * a : Nat) - (p * b : Nat)) - q * ((c * a : Nat) - (m * b : Nat)) := by
    push_cast
    ring
  have habs := congrArg Int.natAbs hsplit
  rw [Int.natAbs_mul, Int.natAbs_natCast] at habs
  rw [habs]
  refine (Int.natAbs_sub_le _ _).trans (le_of_eq ?_)
  rw [Int.natAbs_mul, Int.natAbs_mul, Int.natAbs_natCast, Int.natAbs_natCast]
  rfl

/-- A fraction that is near to the same quotient is equal to the one that isolates it. -/
theorem Isolates.cross_eq (h : Isolates a b most fraction) (hc : c ≤ most)
    (hnear : gap a b (m, c) * 2 ^ 26 < b) : fraction.2 * m = c * fraction.1 := by
  obtain ⟨hpos, -, hbound⟩ := h
  have hle := cross_le_gaps a b m c fraction
  have hlt : b * 2 ^ 26 * ((fraction.2 * m : Nat) - (c * fraction.1 : Nat) : Int).natAbs <
      b * 2 ^ 26 * 1 := by
    calc b * 2 ^ 26 * ((fraction.2 * m : Nat) - (c * fraction.1 : Nat) : Int).natAbs
        = b * ((fraction.2 * m : Nat) - (c * fraction.1 : Nat) : Int).natAbs * 2 ^ 26 := by ring
      _ ≤ (c * gap a b fraction + fraction.2 * gap a b (m, c)) * 2 ^ 26 :=
        Nat.mul_le_mul_right _ hle
      _ = c * gap a b fraction * 2 ^ 26 + fraction.2 * (gap a b (m, c) * 2 ^ 26) := by ring
      _ < c * gap a b fraction * 2 ^ 26 + fraction.2 * b :=
        Nat.add_lt_add_left (Nat.mul_lt_mul_of_pos_left hnear hpos) _
      _ ≤ most * gap a b fraction * 2 ^ 26 + fraction.2 * b := by gcongr
      _ ≤ b * 2 ^ 26 * 1 := by rwa [mul_one]
  have hzero := Nat.lt_of_mul_lt_mul_left hlt
  omega

/-- So it is a multiple of it, since that one is in lowest terms. -/
theorem Isolates.eq_multiple (h : Isolates a b most fraction) (hc : c ≤ most)
    (hnear : gap a b (m, c) * 2 ^ 26 < b) :
    ∃ i, m = i * fraction.1 ∧ c = i * fraction.2 := by
  have hcross := h.cross_eq hc hnear
  obtain ⟨hpos, hgcd, -⟩ := h
  obtain ⟨i, hi⟩ : fraction.2 ∣ c := by
    have hdvd : fraction.2 ∣ c * fraction.1 := ⟨m, hcross.symm⟩
    exact (Nat.Coprime.symm hgcd).dvd_of_dvd_mul_right hdvd
  refine ⟨i, ?_, by rw [hi, Nat.mul_comm]⟩
  rw [hi, Nat.mul_assoc] at hcross
  exact Nat.eq_of_mul_eq_mul_left hpos hcross

end Near

/-! ### The middles -/

/-- The values on both sides of a middle, which is given in half units of `2 ^ -f`, are read back,
as far as there are such values. -/
def Recovers (f middle : Nat) : Prop :=
  ∀ s ∈ [middle / 2, middle / 2 + 1], 0 < s → s < 2 ^ 24 →
    readBack (Format.single.pattern s (-(f : Int))) = Format.single.pattern s (-(f : Int))

instance (f middle : Nat) : Decidable (Recovers f middle) :=
  inferInstanceAs (Decidable (∀ s ∈ [middle / 2, middle / 2 + 1], 0 < s → s < 2 ^ 24 → _))

/-- The number of digits on the finest grid that is not finer than the units of `2 ^ -f`, or almost
not. -/
def places (f : Nat) : Nat := (f * 30103 + 12500) / 100000

/-- The greatest grid point below the values with the exponent `-f`. -/
def lastPoint (f : Nat) : Nat := 2 ^ 24 * 10 ^ places f / 2 ^ f

/-- A fraction isolates the quotient that middles are made of, and where it leads to a middle the
values next to it are read back. -/
def Settles (f : Nat) (fraction : Nat × Nat) : Prop :=
  Isolates (2 ^ (f + 1)) (10 ^ places f) (lastPoint f) fraction ∧
    ∀ i ∈ List.range (lastPoint f / fraction.2 + 1),
      i * fraction.1 % 2 = 1 →
        i * gap (2 ^ (f + 1)) (10 ^ places f) fraction * 2 ^ 26 < 10 ^ places f →
          Recovers f (i * fraction.1)

instance (f : Nat) (fraction : Nat × Nat) : Decidable (Settles f fraction) :=
  inferInstanceAs (Decidable (_ ∧ _))

/-- For every exponent of values below one there is a convergent that settles it. -/
theorem exists_settling : ∀ f ∈ List.range' 24 126,
    4 * 2 ^ f < 3 * 10 ^ (places f + 1) ∧
      ∃ fraction ∈ convergents 40 (2 ^ (f + 1)) (10 ^ places f) (0, 1) (1, 0),
        Settles f fraction := by
  decide +kernel

/-- Powers of two are read back. Below them the units are smaller, so they are tried out. -/
theorem read_back_power : ∀ f ∈ List.range' 24 126,
    readBack (Format.single.pattern (2 ^ 23) (-(f : Int))) =
      Format.single.pattern (2 ^ 23) (-(f : Int)) := by
  decide +kernel

/-- A fraction that is not in lowest terms is as many times further away. -/
theorem gap_mul (a b i : Nat) (fraction : Nat × Nat) :
    gap a b (i * fraction.1, i * fraction.2) = i * gap a b fraction := by
  unfold gap
  rw [← Int.natAbs_natCast i, ← Int.natAbs_mul, Int.natAbs_natCast]
  congr 1
  push_cast
  ring

/-- Where a decimal lies next to a middle, the values on both sides are read back. -/
theorem recovers_of_near {f middle c n : Nat} (hf : 24 ≤ f ∧ f ≤ 149) (hn : n ≤ places f)
    (hodd : middle % 2 = 1) (hplace : place (-(f : Int)) (-(n : Int)) c ≤ 2 ^ 24)
    (hnear : |2 * place (-(f : Int)) (-(n : Int)) c - middle| < 1 / 2 ^ 26) :
    Recovers f middle := by
  obtain ⟨-, fraction, -, hisolates, htried⟩ :=
    exists_settling f (List.mem_range'_1.2 (by omega))
  have hpower : (10 : ℚ) ^ places f = 10 ^ n * 10 ^ (places f - n) := by
    rw [← pow_add]
    congr 1
    omega
  have hten : (0 : ℚ) < 10 ^ places f := by positivity
  have hrefined : place (-(f : Int)) (-(n : Int)) c =
      (c * 10 ^ (places f - n) : Nat) * 2 ^ f / 10 ^ places f := by
    rw [place, hpower, zpow_neg, zpow_neg, zpow_natCast, zpow_natCast]
    push_cast
    field_simp
  generalize c * 10 ^ (places f - n) = point at hrefined
  have hpoint : point ≤ lastPoint f := by
    rw [hrefined, div_le_iff₀ hten] at hplace
    rw [lastPoint, Nat.le_div_iff_mul_le (by positivity)]
    exact_mod_cast hplace
  have hgap : gap (2 ^ (f + 1)) (10 ^ places f) (middle, point) * 2 ^ 26 < 10 ^ places f := by
    have hquotient : 2 * place (-(f : Int)) (-(n : Int)) c - middle =
        (((point * 2 ^ (f + 1) : Nat) - (middle * 10 ^ places f : Nat) : Int) : ℚ) /
          10 ^ places f := by
      rw [hrefined]
      push_cast
      field_simp
      ring
    rw [hquotient, abs_div, abs_of_pos hten, div_lt_div_iff₀ hten (by norm_num), one_mul,
      ← Int.cast_abs, Int.abs_eq_natAbs] at hnear
    unfold gap
    generalize ((point * 2 ^ (f + 1) : Nat) - (middle * 10 ^ places f : Nat) : Int) = z at hnear ⊢
    exact_mod_cast hnear
  obtain ⟨i, rfl, rfl⟩ := hisolates.eq_multiple hpoint hgap
  rw [gap_mul] at hgap
  refine htried i (List.mem_range.2 (Nat.lt_succ_of_le ?_)) hodd hgap
  exact (Nat.le_div_iff_mul_le hisolates.1).2 hpoint

/-! ### Reading back -/

section ReadBack

variable {p : Nat}

/-- A value in double precision that is nearest to one in single precision is rounded to it. -/
theorem narrow_eq {pattern : Nat} (hpos : 0 < Format.double.value pattern)
    (hfinite : p < Format.single.infinity)
    (hpower : (Format.single.unpack p).2 = Format.single.least ∨
      Format.single.binade < (Format.single.unpack p).1)
    (h : |Format.double.value pattern / 2 ^ (Format.single.unpack p).2 -
        (Format.single.unpack p).1| < 1 / 2 ∨
      |Format.double.value pattern / 2 ^ (Format.single.unpack p).2 -
        (Format.single.unpack p).1| = 1 / 2 ∧ (Format.single.unpack p).1 % 2 = 0) :
    narrow pattern = p := by
  have hvalue : Format.double.value pattern = (Format.double.unpack pattern).1 *
      2 ^ (Format.double.unpack pattern).2 := rfl
  unfold narrow
  simp only
  generalize (Format.double.unpack pattern).1 = a at hvalue ⊢
  generalize (Format.double.unpack pattern).2 = b at hvalue ⊢
  have ha : 0 < a := by
    refine Nat.pos_of_ne_zero fun hzero => ?_
    rw [hvalue, hzero, Nat.cast_zero, zero_mul] at hpos
    exact lt_irrefl _ hpos
  have hratio := shifted_ratio_eq 1 a b
  have hden := shifted_ratio_pos 1 ha b
  rw [Nat.cast_one, div_div, ← hvalue] at hratio
  have hinverse : ((shiftedRatio 1 a b).2 : ℚ) / (shiftedRatio 1 a b).1 =
      Format.double.value pattern := by
    rw [← inv_div, hratio, one_div, inv_inv]
  have hnum : 0 < (shiftedRatio 1 a b).1 := by
    refine Nat.pos_of_ne_zero fun hzero => hpos.ne ?_
    rw [← hinverse, hzero, Nat.cast_zero, div_zero]
  exact round_ratio_eq_pattern (by decide) hden hnum hfinite hpower (by rwa [hinverse])

/-- A value that is not a power of two is read back if its decimal is not next to a middle. -/
theorem read_back_of_far {c n : Nat} (hp : 0 < p) (hone : p < 127 * 2 ^ 23)
    (hdigits : Digits p c n) (hpower : (Format.single.unpack p).2 = Format.single.least ∨
      Format.single.binade < (Format.single.unpack p).1)
    (hfar : |place (Format.single.unpack p).2 (-(n : Int)) c - (Format.single.unpack p).1| ≤
      1 / 2 - 1 / 2 ^ 27) :
    readBack p = p := by
  obtain ⟨hs, hfits, -, -⟩ := unpack_below_one hp hone
  have hread : readBack p = narrow (overPower (roundRatio .double c 1) n) := by
    rw [readBack, hdigits.found]
    simp
  obtain ⟨-, hlow, hhigh⟩ := over_power_near hdigits.pos (hdigits.few.trans (by norm_num))
    hdigits.short
  have hc : (0 : ℚ) < c := by exact_mod_cast hdigits.pos
  have hten : (0 : ℚ) < 10 ^ n := by positivity
  have hpos : 0 < Format.double.value (overPower (roundRatio .double c 1) n) := by
    refine pos_of_mul_pos_left (lt_of_lt_of_le ?_ hlow) hten.le
    exact mul_pos hc (by norm_num)
  have hfinite : p < Format.single.infinity := hone.trans (by decide)
  rw [hread]
  refine narrow_eq hpos hfinite hpower (.inl ?_)
  have hsmall : ((Format.single.unpack p).1 : ℚ) + 1 ≤ 2 ^ 24 := by exact_mod_cast hfits
  generalize Format.double.value (overPower (roundRatio .double c 1) n) = v at *
  generalize (Format.single.unpack p).2 = e at *
  have hunit : (0 : ℚ) < 2 ^ e := by positivity
  have hstep : (0 : ℚ) < (10 ^ n)⁻¹ / 2 ^ e := by positivity
  have hplace : place e (-(n : Int)) c = c * ((10 ^ n)⁻¹ / 2 ^ e) := by
    rw [place, zpow_neg, zpow_natCast, mul_div_assoc]
  have hquotient : v / 2 ^ e = v * 10 ^ n * ((10 ^ n)⁻¹ / 2 ^ e) := by
    field_simp
  have hlow' := mul_le_mul_of_nonneg_right hlow hstep.le
  have hhigh' := mul_le_mul_of_nonneg_right hhigh hstep.le
  rw [← hquotient, mul_right_comm, ← hplace] at hlow' hhigh'
  obtain ⟨hfarlow, hfarhigh⟩ := abs_le.1 hfar
  rw [abs_lt]
  constructor <;> linarith

/-- A decimal next to a middle lies on a grid that is hardly finer than the units. -/
theorem length_of_near {f n : Nat} (hf : 24 ≤ f ∧ f ≤ 149)
    (hgrid : 3 / 4 ≤ place (-(f : Int)) (-(n : Int)) 1) : n ≤ places f := by
  obtain ⟨hlast, -⟩ := exists_settling f (List.mem_range'_1.2 (by omega))
  have hten : (0 : ℚ) < 10 ^ n := by positivity
  rw [place, Nat.cast_one, one_mul, zpow_neg, zpow_neg, zpow_natCast, zpow_natCast, inv_div_inv,
    le_div_iff₀ hten] at hgrid
  have hlast' : (4 : ℚ) * 2 ^ f < 3 * 10 ^ (places f + 1) := by exact_mod_cast hlast
  have hpower : (10 : ℚ) ^ n < 10 ^ (places f + 1) := by linarith
  exact Nat.lt_succ_iff.1 ((pow_lt_pow_iff_right₀ (by norm_num)).1 hpower)

/-- A value that is not a power of two is read back if its decimal is next to a middle. -/
theorem read_back_of_near {c n f : Nat} (hp : 0 < p) (hone : p < 127 * 2 ^ 23)
    (hdigits : Digits p c n) (hexp : (Format.single.unpack p).2 = -(f : Int))
    (hpower : (Format.single.unpack p).2 = Format.single.least ∨
      Format.single.binade < (Format.single.unpack p).1)
    (hnear : 1 / 2 - 1 / 2 ^ 27 <
      |place (Format.single.unpack p).2 (-(n : Int)) c - (Format.single.unpack p).1|) :
    readBack p = p := by
  obtain ⟨hs, hfits, hlow, hhigh⟩ := unpack_below_one hp hone
  obtain ⟨hinside, hnearest⟩ := grid_point_spec hs hdigits.point
  have hclose := place_near hs hinside
  have hpattern := Format.single.pattern_unpack p
  have hgrid := hnearest (by omega)
  rw [hexp] at *
  generalize (Format.single.unpack p).1 = s at *
  have hf : 24 ≤ f ∧ f ≤ 149 := by omega
  have hcoarse : 3 / 4 ≤ place (-(f : Int)) (-(n : Int)) 1 := by
    refine le_trans ?_ ((mul_le_mul_of_nonneg_left hnear.le (by norm_num)).trans hgrid)
    norm_num
  have hlength := length_of_near hf hcoarse
  have hsmall : (s : ℚ) + 1 ≤ 2 ^ 24 := by exact_mod_cast hfits
  have hplace : place (-(f : Int)) (-(n : Int)) c ≤ 2 ^ 24 := by linarith [(abs_le.1 hclose).2]
  have hrecovers (middle : Nat) (hodd : middle % 2 = 1)
      (hs : s = middle / 2 ∨ s = middle / 2 + 1)
      (hnear : |2 * place (-(f : Int)) (-(n : Int)) c - middle| < 1 / 2 ^ 26) :
      readBack p = p := by
    have h := recovers_of_near hf hlength hodd hplace hnear s (by simpa using hs) ‹_› hfits
    rwa [hpattern] at h
  rcases le_total (s : ℚ) (place (-(f : Int)) (-(n : Int)) c) with habove | hbelow
  · rw [abs_of_nonneg (by linarith)] at hnear hclose
    refine hrecovers (2 * s + 1) (by omega) (by omega) ?_
    push_cast
    rw [abs_lt]
    constructor <;> linarith
  · rw [abs_of_nonpos (by linarith)] at hnear hclose
    refine hrecovers (2 * s - 1) (by omega) (by omega) ?_
    rw [Nat.cast_sub (by omega)]
    push_cast
    rw [abs_lt]
    constructor <;> linarith

/-- A value between zero and one is read back from its shortest decimal. -/
theorem read_back_eq (hp : 0 < p) (hone : p < 127 * 2 ^ 23) : readBack p = p := by
  obtain ⟨c, n, hdigits⟩ := exists_digits hp hone
  obtain ⟨-, -, hlow, hhigh⟩ := unpack_below_one hp hone
  obtain ⟨f, hexp⟩ : ∃ f : Nat, (Format.single.unpack p).2 = -(f : Int) :=
    ⟨(-(Format.single.unpack p).2).toNat, by omega⟩
  by_cases hpower : (Format.single.unpack p).2 = Format.single.least ∨
      Format.single.binade < (Format.single.unpack p).1
  · rcases le_or_gt |place (Format.single.unpack p).2 (-(n : Int)) c -
        (Format.single.unpack p).1| (1 / 2 - 1 / 2 ^ 27) with hfar | hnear
    · exact read_back_of_far hp hone hdigits hpower hfar
    · exact read_back_of_near hp hone hdigits hexp hpower hnear
  · obtain ⟨-, -, hfills⟩ := Format.single.unpack_bounds p
    have hs : (Format.single.unpack p).1 = 2 ^ 23 := by
      have hbinade : Format.single.binade = 2 ^ 23 := rfl
      omega
    have h := read_back_power f (List.mem_range'_1.2 (by omega))
    rwa [← hs, ← hexp, Format.single.pattern_unpack] at h

end ReadBack

end TileCourse.Decimal
