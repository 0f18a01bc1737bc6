import TileCourse.Decimal.Shortest
import TileCourse.Proofs.Decimal.Rounding

/-!
# Shortest decimals

What is known of the decimal that is found for a binary value: it is at most half a unit away, the
grid it lies on is not much finer than the units, and on that grid no point is nearer.
-/

namespace TileCourse.Decimal

/-! ### Points of a grid -/

section Grid

variable {format : Format} {s : Nat} {e ten : Int} {c : Nat}

/-- A weight gathers the powers that are multiplied and those that are divided by. -/
theorem weight_eq_mul (ten two : Int) : weight ten two =
    (10 ^ ten.toNat * 2 ^ (-two).toNat, 10 ^ (-ten).toNat * 2 ^ two.toNat) := by
  simp only [weight, Nat.shiftLeft_eq, Nat.pow_eq]

/-- A weight is a power of ten by a power of two. -/
theorem weight_eq (ten two : Int) :
    ((weight ten two).1 : ℚ) / (weight ten two).2 = 10 ^ ten / 2 ^ two := by
  have hsplit (b : ℚ) (hb : b ≠ 0) (k : Int) : b ^ k = b ^ k.toNat / b ^ (-k).toNat := by
    rw [← zpow_natCast, ← zpow_natCast, ← zpow_sub₀ hb]
    congr 1
    omega
  rw [weight_eq_mul, hsplit 10 (by norm_num) ten, hsplit 2 (by norm_num) two]
  push_cast
  rw [div_div_div_eq]

/-- Both parts of a weight are positive. -/
theorem weight_pos (ten two : Int) : 0 < (weight ten two).1 ∧ 0 < (weight ten two).2 := by
  rw [weight_eq_mul]
  constructor <;> positivity

/-- The place of a grid point, in units of a value. -/
def place (e ten : Int) (c : Nat) : ℚ := c * 10 ^ ten / 2 ^ e

/-- The place of a grid point in the numbers with which the search compares. -/
theorem place_eq (e ten : Int) (c : Nat) :
    place e ten c = c * (weight ten (e - 2)).1 / (4 * (weight ten (e - 2)).2) := by
  calc place e ten c = c * (10 ^ ten / 2 ^ (e - 2)) / 4 := by
        rw [place, zpow_sub₀ two_ne_zero]
        norm_num
        ring
    _ = c * (weight ten (e - 2)).1 / (4 * (weight ten (e - 2)).2) := by
        rw [← weight_eq]
        ring

/-- Whether a grid point lies at or below a quarter is decided without fractions. -/
theorem place_le_iff {a : Nat} (e ten : Int) (c : Nat) :
    place e ten c ≤ (a : ℚ) / 4 ↔
      c * (weight ten (e - 2)).1 ≤ a * (weight ten (e - 2)).2 := by
  have hpos : (0 : ℚ) < (weight ten (e - 2)).2 := by exact_mod_cast (weight_pos ten (e - 2)).2
  rw [place_eq, mul_comm 4, ← div_div, div_le_div_iff_of_pos_right (by norm_num), div_le_iff₀ hpos]
  exact_mod_cast Iff.rfl

/-- Whether a grid point lies at or above a quarter is decided without fractions. -/
theorem le_place_iff {a : Nat} (e ten : Int) (c : Nat) :
    (a : ℚ) / 4 ≤ place e ten c ↔
      a * (weight ten (e - 2)).2 ≤ c * (weight ten (e - 2)).1 := by
  have hpos : (0 : ℚ) < (weight ten (e - 2)).2 := by exact_mod_cast (weight_pos ten (e - 2)).2
  rw [place_eq, mul_comm 4, ← div_div, div_le_div_iff_of_pos_right (by norm_num), le_div_iff₀ hpos]
  exact_mod_cast Iff.rfl

/-- The choice between the two grid points next to a value. -/
def pick (inside : Nat → Bool) (value num : Nat) : Option Nat :=
  if inside (value / num) && inside (value / num + 1) then
    some (if value - value / num * num < (value / num + 1) * num - value ∨
        (value - value / num * num = (value / num + 1) * num - value ∧ value / num % 2 = 0) then
      value / num else value / num + 1)
  else if inside (value / num) then some (value / num)
  else if inside (value / num + 1) then some (value / num + 1)
  else none

/-- Whether a grid point lies between the ends of the numbers that are rounded to a value. -/
def inside (format : Format) (s : Nat) (e ten : Int) (c : Nat) : Bool :=
  let (low, high) := roundingEnds format s e
  let (num, den) := weight ten (e - 2)
  if s % 2 = 0 then low * den ≤ c * num && c * num ≤ high * den
  else low * den < c * num && c * num < high * den

/-- The grid point of a value is picked from the two that are next to it. -/
theorem grid_point_eq (format : Format) (s : Nat) (e ten : Int) :
    gridPoint? format s e ten = pick (inside format s e ten)
      (4 * s * (weight ten (e - 2)).2) (weight ten (e - 2)).1 := rfl

/-- The point that is picked is inside, and no other point that is next to the value and inside is
nearer. -/
theorem pick_eq_some {inside : Nat → Bool} {value num : Nat} (hnum : 0 < num)
    (h : pick inside value num = some c) :
    inside c = true ∧
      ((c * num ≤ value ∧ value < (c + 1) * num ∧
          (inside (c + 1) = true → value - c * num ≤ (c + 1) * num - value)) ∨
        ∃ d, c = d + 1 ∧ d * num ≤ value ∧ value < c * num ∧
          (inside d = true → c * num - value ≤ value - d * num)) := by
  have hbelow : value / num * num ≤ value := Nat.div_mul_le_self value num
  have habove : value < (value / num + 1) * num := by
    rw [Nat.mul_comm]
    exact Nat.lt_mul_div_succ value hnum
  unfold pick at h
  generalize value / num = d at *
  split at h
  · rename_i hboth
    rw [Bool.and_eq_true] at hboth
    split at h
    · cases h
      exact ⟨hboth.1, .inl ⟨hbelow, habove, fun _ => by omega⟩⟩
    · cases h
      exact ⟨hboth.2, .inr ⟨d, rfl, hbelow, habove, fun _ => by omega⟩⟩
  · rename_i hboth
    split at h
    · rename_i hone
      cases h
      refine ⟨hone, .inl ⟨hbelow, habove, fun htwo => ?_⟩⟩
      simp [hone, htwo] at hboth
    · rename_i hone
      split at h
      · rename_i htwo
        cases h
        exact ⟨htwo, .inr ⟨d, rfl, hbelow, habove, fun hd => absurd hd hone⟩⟩
      · cases h

/-- If no grid point is picked, the one below the value is not inside. -/
theorem pick_eq_none {inside : Nat → Bool} {value num : Nat} (h : pick inside value num = none) :
    inside (value / num) = false := by
  unfold pick at h
  by_cases hone : inside (value / num) = true
  · rw [hone] at h
    split at h <;> simp at h
  · simpa using hone

/-- A grid point is inside if it does not lie beyond the ends, or on one of them if the significand
is odd. -/
theorem inside_iff : inside format s e ten c = true ↔
    ((roundingEnds format s e).1 : ℚ) / 4 ≤ place e ten c ∧
      place e ten c ≤ ((roundingEnds format s e).2 : ℚ) / 4 ∧
      (s % 2 ≠ 0 → ((roundingEnds format s e).1 : ℚ) / 4 < place e ten c ∧
        place e ten c < ((roundingEnds format s e).2 : ℚ) / 4) := by
  rw [← not_le, ← not_le, place_le_iff, le_place_iff, place_le_iff, le_place_iff, inside]
  by_cases heven : s % 2 = 0
  · simp [heven]
  · simp only [heven, if_false, Bool.and_eq_true, decide_eq_true_eq, ne_eq, not_false_eq_true,
      true_implies, not_le]
    omega

/-- The ends lie half a unit above a value, and half a unit or a quarter of one below it. -/
theorem rounding_ends (format : Format) (e : Int) (hs : 0 < s) :
    ((roundingEnds format s e).2 : ℚ) / 4 = s + 1 / 2 ∧
      (s : ℚ) - 1 / 2 ≤ ((roundingEnds format s e).1 : ℚ) / 4 ∧
      ((roundingEnds format s e).1 : ℚ) / 4 ≤ s - 1 / 4 := by
  unfold roundingEnds
  simp only
  refine ⟨by push_cast; ring, ?_⟩
  split
  · rw [Nat.cast_sub (by omega)]
    push_cast
    constructor <;> linarith
  · rw [Nat.cast_sub (by omega)]
    push_cast
    constructor <;> linarith

/-- Unless the value is a power of two, the ends lie half a unit away on both sides. -/
theorem rounding_ends_even (hs : 0 < s) (hpower : s ≠ format.binade ∨ e ≤ format.least) :
    ((roundingEnds format s e).1 : ℚ) / 4 = s - 1 / 2 := by
  unfold roundingEnds
  simp only
  rw [if_neg (by omega), Nat.cast_sub (by omega)]
  push_cast
  ring

/-- A point that is inside is at most half a unit away, and less if the significand is odd. -/
theorem place_of_inside (hs : 0 < s) (h : inside format s e ten c = true) :
    |place e ten c - s| < 1 / 2 ∨ |place e ten c - s| = 1 / 2 ∧ s % 2 = 0 := by
  obtain ⟨hlow, hhigh, hodd⟩ := inside_iff.1 h
  obtain ⟨hend, hstart, -⟩ := rounding_ends format e hs
  have hle : |place e ten c - s| ≤ 1 / 2 := abs_le.2 ⟨by linarith, by linarith⟩
  rcases hle.lt_or_eq with hlt | heq
  · exact .inl hlt
  · by_cases heven : s % 2 = 0
    · exact .inr ⟨heq, heven⟩
    · obtain ⟨hlow, hhigh⟩ := hodd heven
      exact .inl (abs_lt.2 ⟨by linarith, by linarith⟩)

/-- A grid point that is inside is half a unit from the value at most. -/
theorem place_near (hs : 0 < s) (h : inside format s e ten c = true) :
    |place e ten c - s| ≤ 1 / 2 := by
  rcases place_of_inside hs h with hlt | heq
  · exact hlt.le
  · exact heq.1.le

/-- A point that is not further away than one inside is inside as well, if the ends are even. -/
theorem inside_of_nearer {d : Nat} (hs : 0 < s) (hpower : s ≠ format.binade ∨ e ≤ format.least)
    (h : inside format s e ten c = true) (hd : |place e ten d - s| < |place e ten c - s|) :
    inside format s e ten d = true := by
  obtain ⟨hend, -, -⟩ := rounding_ends format e hs
  have hstart := rounding_ends_even hs hpower
  have hdist := abs_lt.1 (hd.trans_le (place_near hs h))
  exact inside_iff.2 ⟨by linarith, by linarith, fun _ => ⟨by linarith, by linarith⟩⟩

/-- The points of a grid follow each other at equal distances. -/
theorem place_succ (e ten : Int) (c : Nat) :
    place e ten (c + 1) = place e ten c + place e ten 1 := by
  unfold place
  push_cast
  ring

/-- Whether a grid point lies at or below a value is decided without fractions. -/
theorem place_le_value_iff (e ten : Int) (c s : Nat) : place e ten c ≤ s ↔
    c * (weight ten (e - 2)).1 ≤ 4 * s * (weight ten (e - 2)).2 := by
  rw [← place_le_iff]
  push_cast
  rw [mul_div_cancel_left₀ _ (by norm_num)]

/-- Whether a grid point lies at or above a value is decided without fractions. -/
theorem value_le_place_iff (e ten : Int) (c s : Nat) : (s : ℚ) ≤ place e ten c ↔
    4 * s * (weight ten (e - 2)).2 ≤ c * (weight ten (e - 2)).1 := by
  rw [← le_place_iff]
  push_cast
  rw [mul_div_cancel_left₀ _ (by norm_num)]

/-- Twice a value lies between two grid points as their distances compare. -/
theorem place_double (e ten : Int) (c : Nat) :
    place e ten (2 * c + 1) = 2 * place e ten c + place e ten 1 := by
  unfold place
  push_cast
  ring

/-- The point that is found is inside, and no point of the grid is nearer if the ends are even. -/
theorem grid_point_spec (hs : 0 < s) (h : gridPoint? format s e ten = some c) :
    inside format s e ten c = true ∧
      (s ≠ format.binade ∨ e ≤ format.least → 2 * |place e ten c - s| ≤ place e ten 1) := by
  rw [grid_point_eq] at h
  obtain ⟨hinside, hplace⟩ := pick_eq_some (weight_pos ten (e - 2)).1 h
  refine ⟨hinside, fun hpower => not_lt.1 fun hfar => ?_⟩
  have htwice (d : Nat) : (2 * d + 1) * (weight ten (e - 2)).1 =
      d * (weight ten (e - 2)).1 + (d + 1) * (weight ten (e - 2)).1 := by ring
  have hvalue : 4 * (2 * s) * (weight ten (e - 2)).2 = 2 * (4 * s * (weight ten (e - 2)).2) := by
    ring
  rcases hplace with ⟨hbelow, habove, hnearer⟩ | ⟨d, rfl, hbelow, habove, hnearer⟩
  · have hbelow' := (place_le_value_iff e ten c s).2 hbelow
    have habove' := not_le.1 fun hle => not_le.2 habove ((place_le_value_iff e ten (c + 1) s).1 hle)
    rw [abs_of_nonpos (by linarith)] at hfar
    rw [place_succ] at habove'
    have hother : inside format s e ten (c + 1) = true := by
      refine inside_of_nearer hs hpower hinside ?_
      rw [place_succ, abs_of_pos (by linarith), abs_of_nonpos (by linarith)]
      linarith
    have hmiddle : ¬ ((2 * s : Nat) : ℚ) ≤ place e ten (2 * c + 1) := by
      rw [place_double, not_le]
      push_cast
      linarith
    rw [value_le_place_iff, hvalue, htwice] at hmiddle
    have := hnearer hother
    omega
  · have hbelow' := (place_le_value_iff e ten d s).2 hbelow
    have habove' := not_le.1 fun hle =>
      not_le.2 habove ((place_le_value_iff e ten (d + 1) s).1 hle)
    rw [abs_of_pos (by linarith), place_succ e ten d] at hfar
    rw [place_succ e ten d] at habove'
    have hother : inside format s e ten d = true := by
      refine inside_of_nearer hs hpower hinside ?_
      rw [place_succ e ten d, abs_of_nonpos (by linarith), abs_of_pos (by linarith)]
      linarith
    have hmiddle : ¬ place e ten (2 * d + 1) ≤ ((2 * s : Nat) : ℚ) := by
      rw [place_double, not_le]
      push_cast
      linarith
    rw [place_le_value_iff, hvalue, htwice] at hmiddle
    have := hnearer hother
    omega

/-- A grid that is fine enough has a point inside. -/
theorem exists_grid_point (hs : 0 < s) (hfine : 4 * place e ten 1 ≤ 1) :
    gridPoint? format s e ten ≠ none := by
  intro h
  rw [grid_point_eq] at h
  have hnot := pick_eq_none h
  obtain ⟨hend, -, hstart⟩ := rounding_ends format e hs
  have hnum := (weight_pos ten (e - 2)).1
  have hbelow := (place_le_value_iff e ten _ s).2 (Nat.div_mul_le_self
    (4 * s * (weight ten (e - 2)).2) (weight ten (e - 2)).1)
  have habove : (s : ℚ) < place e ten
      (4 * s * (weight ten (e - 2)).2 / (weight ten (e - 2)).1 + 1) := by
    have hdiv := Nat.lt_mul_div_succ (4 * s * (weight ten (e - 2)).2) hnum
    rw [Nat.mul_comm (weight ten (e - 2)).1] at hdiv
    rwa [← not_le, place_le_value_iff, not_le]
  rw [place_succ] at habove
  refine absurd (inside_iff.2 ⟨?_, ?_, fun _ => ⟨?_, ?_⟩⟩) (Bool.not_eq_true _ ▸ hnot)
  all_goals linarith

end Grid

/-! ### The search -/

/-- The search ends on a grid with a point inside, and passes only over grids without one. -/
theorem first_grid_spec {format : Format} {s : Nat} {e : Int} {tries : Nat} {ten : Int}
    (h : gridPoint? format s e (ten - tries) ≠ none) :
    ∃ c t, firstGrid format s e tries ten = ⟨c, t⟩ ∧ gridPoint? format s e t = some c ∧ t ≤ ten ∧
      ten - tries ≤ t ∧ (t = ten ∨ gridPoint? format s e (t + 1) = none) := by
  induction tries generalizing ten with
  | zero =>
      rw [Nat.cast_zero, sub_zero] at h
      obtain ⟨c, hc⟩ := Option.ne_none_iff_exists'.1 h
      exact ⟨c, ten, by simp [firstGrid, hc], hc, le_refl _, by simp, .inl rfl⟩
  | succ tries ih =>
      rw [firstGrid]
      cases hten : gridPoint? format s e ten with
      | some c => exact ⟨c, ten, rfl, hten, le_refl _, by omega, .inl rfl⟩
      | none =>
          have hnext : ten - 1 - (tries : Int) = ten - (tries + 1 : Nat) := by omega
          obtain ⟨c, t, heq, hc, htop, hbottom, hlast⟩ := ih (by rwa [hnext])
          refine ⟨c, t, heq, hc, by omega, by omega, .inr ?_⟩
          rcases hlast with rfl | hlast
          · rwa [sub_add_cancel]
          · exact hlast

/-- The powers of ten between which the search goes on, for all exponents of values below one. -/
theorem search_powers : ∀ f ∈ List.range' 24 126,
    10 ^ (((f - 1) * 30103 + 99999) / 100000) < 400 * 2 ^ f ∧
      4 * 2 ^ f ≤ 10 ^ (((f - 24) * 30103 + 99999) / 100000 + 23) := by
  decide +kernel

/-- The search starts on a grid that is not much finer than the units of a value below one, and goes
on to one that is fine enough. -/
theorem search_range {f : Nat} {size : Int} (hf : 24 ≤ f ∧ f ≤ 149)
    (hsize : -(f : Int) < size ∧ size ≤ 24 - f) :
    (2 : ℚ) ^ (-(f : Int)) < 4 * 10 ^ (size * 30103 / 100000 + 2) ∧
      4 * (10 : ℚ) ^ (size * 30103 / 100000 - 23) ≤ 2 ^ (-(f : Int)) := by
  obtain ⟨hcoarse, hfine⟩ := search_powers f (List.mem_range'_1.2 (by omega))
  obtain ⟨g, hg⟩ : ∃ g : Nat, size * 30103 / 100000 = -(g : Int) :=
    ⟨(-(size * 30103 / 100000)).toNat, by omega⟩
  have hhigh : g ≤ ((f - 1) * 30103 + 99999) / 100000 := by omega
  have hlow : ((f - 24) * 30103 + 99999) / 100000 + 23 ≤ g + 23 := by omega
  generalize ((f - 1) * 30103 + 99999) / 100000 = a at hcoarse hhigh
  generalize ((f - 24) * 30103 + 99999) / 100000 + 23 = b at hfine hlow
  have htwo : (0 : ℚ) < 2 ^ f := by positivity
  have hten (k : Nat) : (0 : ℚ) < 10 ^ k := by positivity
  rw [hg, zpow_neg, zpow_natCast]
  constructor
  · have hnat : 10 ^ g < 400 * 2 ^ f :=
      (Nat.pow_le_pow_right (by decide) hhigh).trans_lt hcoarse
    have hcoarse : (10 : ℚ) ^ g < 400 * 2 ^ f := by exact_mod_cast hnat
    rw [zpow_add₀ (by norm_num), zpow_neg, zpow_natCast, inv_lt_iff_one_lt_mul₀ htwo]
    rw [← div_eq_inv_mul, ← mul_div_assoc, div_mul_eq_mul_div, one_lt_div (hten g)]
    norm_num
    linarith
  · have hnat : 4 * 2 ^ f ≤ 10 ^ (g + 23) :=
      hfine.trans (Nat.pow_le_pow_right (by decide) hlow)
    have hfine : (4 : ℚ) * 2 ^ f ≤ 10 ^ (g + 23) := by exact_mod_cast hnat
    have hexponent : -(g : Int) - 23 = -((g + 23 : Nat) : Int) := by omega
    rw [hexponent, zpow_neg, zpow_natCast, ← div_eq_mul_inv, div_le_iff₀ (hten _), inv_mul_eq_div,
      le_div_iff₀ htwo]
    exact hfine

/-! ### Values below one -/

section Below

variable {p : Nat}

/-- The significand and the exponent of a value between zero and one. -/
theorem unpack_below_one (hp : 0 < p) (hone : p < 127 * 2 ^ 23) :
    0 < (Format.single.unpack p).1 ∧ (Format.single.unpack p).1 < 2 ^ 24 ∧
      -149 ≤ (Format.single.unpack p).2 ∧ (Format.single.unpack p).2 ≤ -24 := by
  have hbinade : Format.single.binade = 2 ^ 23 := rfl
  have hleast : Format.single.least = -149 := rfl
  obtain ⟨hfits, hlow, -⟩ := Format.single.unpack_bounds p
  rw [hbinade] at hfits
  rw [hleast] at hlow
  refine ⟨?_, by omega, hlow, ?_⟩
  · unfold Format.unpack
    simp only [hbinade]
    split
    · exact hp
    · show 0 < 2 ^ 23 + p % 2 ^ 23
      omega
  · unfold Format.unpack
    simp only [hbinade, hleast]
    split
    · show (-149 : Int) ≤ -24
      decide
    · show -149 + ((p / 2 ^ 23 : Nat) : Int) - 1 ≤ -24
      omega

/-- The decimal that is found for a value between zero and one lies on a grid that is not much finer
than the units of the value. -/
theorem shortest_below_one (hp : 0 < p) (hone : p < 127 * 2 ^ 23) :
    ∃ c t, shortest .single p = ⟨c, t⟩ ∧
      gridPoint? .single (Format.single.unpack p).1 (Format.single.unpack p).2 t = some c ∧
      1 < 40 * place (Format.single.unpack p).2 t 1 := by
  obtain ⟨hs, hfits, hlow, hhigh⟩ := unpack_below_one hp hone
  unfold shortest
  simp only
  generalize (Format.single.unpack p).1 = s at *
  generalize (Format.single.unpack p).2 = e at *
  have hlog : s.log2 < 24 := (Nat.log2_lt hs.ne').2 hfits
  obtain ⟨f, rfl⟩ : ∃ f : Nat, e = -(f : Int) := ⟨(-e).toNat, by omega⟩
  generalize hsize : -(f : Int) + s.log2 + 1 = size
  have hbounds : -(f : Int) < size ∧ size ≤ 24 - f := by omega
  obtain ⟨hcoarse, hfine⟩ := search_range (by omega) hbounds
  have hunit : (0 : ℚ) < 2 ^ (-(f : Int)) := by positivity
  have hgrid : gridPoint? .single s (-(f : Int))
      (size * 30103 / 100000 + 1 - (Format.single.precision : Nat)) ≠ none := by
    refine exists_grid_point hs ?_
    have hten : size * 30103 / 100000 + 1 - ((24 : Nat) : Int) = size * 30103 / 100000 - 23 := by
      omega
    show 4 * place _ (size * 30103 / 100000 + 1 - ((24 : Nat) : Int)) 1 ≤ 1
    rw [hten, place, Nat.cast_one, one_mul, ← mul_div_assoc, div_le_one hunit]
    exact hfine
  obtain ⟨c, t, heq, hc, -, -, hlast⟩ := first_grid_spec hgrid
  refine ⟨c, t, heq, hc, ?_⟩
  have hnext : place (-(f : Int)) (t + 1) 1 = 10 * place (-(f : Int)) t 1 := by
    rw [place, place, zpow_add_one₀ (by norm_num)]
    ring
  rcases hlast with rfl | hlast
  · have hplace : 1 < 4 * place (-(f : Int)) (size * 30103 / 100000 + 1 + 1) 1 := by
      rw [place, Nat.cast_one, one_mul, ← mul_div_assoc, one_lt_div hunit, add_assoc]
      exact hcoarse
    rw [hnext] at hplace
    linarith
  · by_contra hcontra
    exact exists_grid_point hs (by rw [hnext]; linarith) hlast

/-- How a value between zero and one is written: some digits after the point, and not many. -/
structure Digits (p c n : Nat) : Prop where
  found : shortest .single p = ⟨c, -(n : Int)⟩
  point : gridPoint? .single (Format.single.unpack p).1 (Format.single.unpack p).2 (-(n : Int)) =
    some c
  pos : 0 < c
  few : c < 10 ^ 9
  small : c < 10 ^ n
  short : n ≤ 46

/-- Every value between zero and one is written with digits. -/
theorem exists_digits (hp : 0 < p) (hone : p < 127 * 2 ^ 23) : ∃ c n, Digits p c n := by
  obtain ⟨c, t, hfound, hpoint, hgrid⟩ := shortest_below_one hp hone
  obtain ⟨hs, hfits, hlow, hhigh⟩ := unpack_below_one hp hone
  have hplace := place_near hs (grid_point_spec hs hpoint).1
  rw [abs_le] at hplace
  generalize hsig : (Format.single.unpack p).1 = s at *
  generalize hexp : (Format.single.unpack p).2 = e at *
  have hunit : (0 : ℚ) < 2 ^ e := by positivity
  have hten : (0 : ℚ) < 10 ^ t := by positivity
  have hvalue : place e t c * 2 ^ e = c * 10 ^ t := div_mul_cancel₀ _ hunit.ne'
  have hone : (1 : ℚ) ≤ s := by exact_mod_cast hs
  have hmost : (s : ℚ) + 1 ≤ 2 ^ 24 := by exact_mod_cast hfits
  have hc : 0 < c := by
    refine Nat.pos_of_ne_zero fun hzero => ?_
    rw [hzero, place, Nat.cast_zero, zero_mul, zero_div] at hplace
    linarith
  have hcone : (1 : ℚ) ≤ c := by exact_mod_cast hc
  have hbelow : (c : ℚ) * 10 ^ t < 1 := by
    have hpower : (2 : ℚ) ^ e ≤ 2 ^ (-24 : Int) := zpow_le_zpow_right₀ one_le_two hhigh
    calc (c : ℚ) * 10 ^ t = place e t c * 2 ^ e := hvalue.symm
      _ < 2 ^ 24 * 2 ^ e := by
        gcongr
        linarith
      _ ≤ 2 ^ 24 * 2 ^ (-24 : Int) := by gcongr
      _ = 1 := by norm_num
  obtain ⟨n, rfl⟩ : ∃ n : Nat, t = -(n : Int) := by
    refine ⟨(-t).toNat, ?_⟩
    have hlt : (10 : ℚ) ^ t < 10 ^ (0 : Int) := by
      rw [zpow_zero]
      nlinarith
    have := (zpow_lt_zpow_iff_right₀ (by norm_num)).1 hlt
    omega
  refine ⟨c, n, hfound, by rw [hsig, hexp]; exact hpoint, hc, ?_, ?_, ?_⟩
  · have hsteps : place e (-(n : Int)) c = c * place e (-(n : Int)) 1 := by
      unfold place
      push_cast
      ring
    have hlt : (c : ℚ) < 40 * 2 ^ 24 := by
      calc (c : ℚ) < c * (40 * place e (-(n : Int)) 1) := lt_mul_of_one_lt_right (by linarith) hgrid
        _ = 40 * place e (-(n : Int)) c := by
          rw [hsteps]
          ring
        _ < 40 * 2 ^ 24 := by linarith
    have hnat : c < 40 * 2 ^ 24 := by exact_mod_cast hlt
    omega
  · rw [zpow_neg, zpow_natCast, ← div_eq_mul_inv, div_lt_one (by positivity)] at hbelow
    exact_mod_cast hbelow
  · have hleast : (2 : ℚ) ^ (-149 : Int) ≤ 2 ^ e := zpow_le_zpow_right₀ one_le_two hlow
    rw [place, Nat.cast_one, one_mul, ← mul_div_assoc, one_lt_div hunit, zpow_neg, zpow_natCast,
      ← div_eq_mul_inv, lt_div_iff₀ (by positivity)] at hgrid
    have hpower : (10 : ℚ) ^ n < 10 ^ 47 := by
      have hmul : (2 : ℚ) ^ (-149 : Int) * 10 ^ n < 40 :=
        lt_of_le_of_lt (by gcongr) hgrid
      norm_num at hmul ⊢
      linarith
    have := (pow_lt_pow_iff_right₀ (by norm_num)).1 hpower
    omega

end Below

end TileCourse.Decimal
