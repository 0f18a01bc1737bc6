import TileCourse.Proofs.Decimal.Middles
import TileCourse.Proofs.Json.Decoding

/-!
# Numbers between zero and one in JSON

A number in single precision is written with its shortest decimal, either digit by digit after a
point or with a power of ten. `Single.survives_clamp_to_unit` says that a loudness, which lies
between zero and one, is read as the same number again.
-/

namespace TileCourse.Json

/-- Digits after the point are gathered as long as 64 bits can hold them. -/
theorem gather_after {cs : List Char} {value : Nat} {exponent : Int} {exact : Bool}
    (h : Nat.ofDigitChars 10 cs value < 1 <<< 64) :
    Decimal.Gathered.after ⟨value, exponent, exact⟩ (cs.map digitValue) =
      ⟨Nat.ofDigitChars 10 cs value, exponent - cs.length, exact⟩ := by
  induction cs generalizing value exponent with
  | nil => simp [Decimal.Gathered.after]
  | cons c cs ih =>
      rw [Nat.ofDigitChars_cons, Nat.mul_comm] at h ⊢
      have hfits : value * 10 + digitValue c < 1 <<< 64 :=
        Nat.lt_of_le_of_lt (Text.le_of_digit_chars cs _) h
      rw [List.map_cons, Decimal.Gathered.after, Decimal.Gathered.fits,
        if_pos (by simpa using hfits)]
      refine (ih h).trans ?_
      simp only [List.length_cons, Decimal.Gathered.mk.injEq, true_and, and_true]
      omega

/-- The digits of an exponent stand for their value as long as that is not too large. -/
theorem exponent_value_eq {cs : List Char} {value count : Nat}
    (h : Nat.ofDigitChars 10 cs value ≤ greatestExponent) :
    exponentValue (cs.map digitValue) value count = .ok (Nat.ofDigitChars 10 cs value) := by
  induction cs generalizing value count with
  | nil => rfl
  | cons c cs ih =>
      rw [Nat.ofDigitChars_cons, Nat.mul_comm] at h ⊢
      have hfits : value * 10 + digitValue c ≤ greatestExponent :=
        Nat.le_trans (Text.le_of_digit_chars cs _) h
      rw [List.map_cons, exponentValue, if_pos hfits]
      exact ih h

/-- A decimal that is gathered as digits and a negative power of ten is read as their quotient. -/
theorem finish_double_quotient (negative : Bool) (c : Nat) {n : Nat} (hpos : 0 < n) (hn : n ≤ 308)
    (exact : Bool) (stop : Nat) :
    finishDouble negative ⟨c, -(n : Int), exact⟩ stop = .ok (.double (.ofPattern negative
      (Decimal.overPower (Decimal.roundRatio .double c 1) n))) := by
  have hpattern : Decimal.Gathered.pattern? ⟨c, -(n : Int), exact⟩ =
      some (Decimal.overPower (Decimal.roundRatio .double c 1) n) := by
    rw [Decimal.Gathered.pattern?]
    simp only
    rw [if_pos (by omega), Decimal.divideDown, if_pos (by simpa [Decimal.greatestPower] using hn)]
    simp
  rw [finishDouble, hpattern]

/-! ### Two ways of writing a decimal -/

section Layouts

variable {negative : Bool} {c n offset : Nat}

/-- The number that a decimal below one is read as. -/
def quotient (negative : Bool) (c n : Nat) : JsonNumber :=
  .double (.ofPattern negative (Decimal.overPower (Decimal.roundRatio .double c 1) n))

/-- Leading zeros add nothing to a value. -/
theorem of_digit_chars_zeros (k : Nat) (cs : List Char) :
    Nat.ofDigitChars 10 (List.replicate k '0' ++ cs) 0 = Nat.ofDigitChars 10 cs 0 := by
  induction k with
  | zero => rfl
  | succ k ih =>
      rw [List.replicate_succ, List.cons_append, Nat.ofDigitChars_cons]
      exact ih

/-- A decimal that is written digit by digit, after a point and some zeros. -/
theorem take_unsigned_point (hfew : c < 1 <<< 64) (hn : n ≤ 308)
    (hlength : (Nat.toDigits 10 c).length ≤ n) :
    (takeUnsigned negative (['0', '.'] ++ List.replicate (n - (Nat.toDigits 10 c).length) '0' ++
      Nat.toDigits 10 c) offset).Yields (quotient negative c n) [] := by
  have hpos : 0 < (Nat.toDigits 10 c).length :=
    List.length_pos_iff.2 (Nat.toDigits_ne_nil (n := c) (b := 10))
  generalize hcs : List.replicate (n - (Nat.toDigits 10 c).length) '0' ++ Nat.toDigits 10 c = cs
  have hdigit : ∀ d ∈ cs, d.isDigit = true := by
    rw [← hcs]
    intro d hd
    rcases List.mem_append.1 hd with hd | hd
    · rw [List.eq_of_mem_replicate hd]
      rfl
    · exact Text.is_digit_of_mem hd
  have hlen : cs.length = n := by
    rw [← hcs, List.length_append, List.length_replicate]
    omega
  have hvalue : Nat.ofDigitChars 10 cs 0 = c := by
    rw [← hcs, of_digit_chars_zeros, Nat.ofDigitChars_ten_toDigits]
  have hzero : takeDigits (['0', '.'] ++ cs) = (0 :: [], '.' :: cs) := rfl
  rw [List.append_assoc, hcs]
  refine take_unsigned_yields hzero (fun _ => rfl) (.fraction fun offset => ?_)
  rw [take_fraction_yields_iff, take_digits_eq hdigit]
  refine ⟨fun hnil => ?_, ?_⟩
  · have hlength := congrArg List.length hnil
    simp only [List.length_map, List.length_nil] at hlength
    omega
  · have hgathered : Decimal.Gathered.after ⟨0, 0, true⟩ (cs.map digitValue) =
        ⟨Nat.ofDigitChars 10 cs 0, 0 - cs.length, true⟩ := gather_after (by rwa [hvalue])
    rw [hvalue, hlen, Int.zero_sub] at hgathered
    show (Taken.complete (finishDouble negative (Decimal.Gathered.after ⟨0, 0, true⟩ _) _) _).Yields
      _ _
    rw [hgathered, finish_double_quotient negative c (by omega) hn]
    exact complete_yields_iff.2 ⟨rfl, rfl⟩

/-- The power of ten after a decimal, which makes its exponent smaller. -/
theorem take_exponent_power {m k : Nat} (hpos : 0 < m + k) (hsum : m + k = n) (hn : n ≤ 308) :
    (takeExponent negative ⟨c, -(m : Int), true⟩ ('-' :: Nat.toDigits 10 k) offset).Yields
      (quotient negative c n) [] := by
  have hdigits := take_digits_eq fun d hd => Text.is_digit_of_mem (n := k) (c := d) hd
  have hvalue : exponentValue ((Nat.toDigits 10 k).map digitValue) 0 0 = .ok k := by
    have hten : Nat.ofDigitChars 10 (Nat.toDigits 10 k) 0 = k := Nat.ofDigitChars_ten_toDigits
    rw [exponent_value_eq (by rw [hten, greatestExponent]; omega), hten]
  rw [take_exponent_yields_iff, takeSign, hdigits]
  refine ⟨?_, rfl, ?_⟩
  · simp [Nat.toDigits_ne_nil]
  · rw [finishExponent, hvalue]
    have hexponent : -(m : Int) - (k : Int) = -(n : Int) := by omega
    simp only [if_true, hexponent]
    exact finish_double_quotient negative c (by omega) hn true _

/-- The digits of a decimal before its power of ten: one of them before the point. -/
def leading (d : Char) (ds : List Char) : List Char := if ds = [] then [d] else d :: '.' :: ds

/-- A decimal that is written as one digit, a point, the other digits and a power of ten. -/
theorem take_unsigned_power {d : Char} {ds : List Char} (hfew : c < 1 <<< 64) (hn : n ≤ 308)
    (hdigits : Nat.toDigits 10 c = d :: ds) (hlength : ds.length < n) :
    (takeUnsigned negative (leading d ds ++ 'e' :: '-' :: Nat.toDigits 10 (n - ds.length))
      offset).Yields (quotient negative c n) [] := by
  have hdigit : ∀ a ∈ d :: ds, a.isDigit = true := by
    rw [← hdigits]
    exact fun a ha => Text.is_digit_of_mem ha
  obtain ⟨hd, hds⟩ := List.forall_mem_cons.1 hdigit
  have hvalue : Nat.ofDigitChars 10 ds (digitValue d) = c := by
    have h := Nat.ofDigitChars_ten_toDigits (n := c)
    rw [hdigits, Nat.ofDigitChars_cons] at h
    simpa [digitValue] using h
  have hone : ([digitValue d] : List Nat).foldl Decimal.Gathered.before .start =
      ⟨digitValue d, 0, true⟩ := by
    have h : ([d].map digitValue).foldl Decimal.Gathered.before ⟨0, 0, true⟩ =
        ⟨Nat.ofDigitChars 10 [d] 0, 0, true⟩ := by
      refine gather_digits (Nat.lt_of_le_of_lt ?_ hfew)
      rw [← hvalue]
      simpa [Nat.ofDigitChars_cons, digitValue] using Text.le_of_digit_chars ds (digitValue d)
    rw [Decimal.Gathered.start]
    simpa [Nat.ofDigitChars_cons, digitValue] using h
  have htake (c : Char) (hc : c.isDigit = false) (more : List Char) :
      takeDigits (d :: c :: more) = ([digitValue d], c :: more) := by
    simp [takeDigits, hd, hc]
  unfold leading
  by_cases hnil : ds = []
  · subst hnil
    rw [if_pos rfl, List.singleton_append]
    refine take_unsigned_yields (htake 'e' rfl _) (fun _ => rfl) (.exponent (.inl rfl) fun _ => ?_)
    rw [hone, ← hvalue]
    exact take_exponent_power (m := 0) (by simpa using hlength) (by simp) hn
  · rw [if_neg hnil, List.cons_append, List.cons_append]
    refine take_unsigned_yields (htake '.' rfl _) (fun _ => rfl) (.fraction fun _ => ?_)
    have hmore : ∀ a ∈ ('e' :: '-' :: Nat.toDigits 10 (n - ds.length)).head?,
        a.isDigit = false := by
      intro a ha
      obtain rfl := Option.some.inj ha
      rfl
    rw [take_fraction_yields_iff, take_digits_append hmore, take_digits_eq hds, hone]
    refine ⟨by simpa using hnil, ?_⟩
    have hgathered : Decimal.Gathered.after ⟨digitValue d, 0, true⟩ (ds.map digitValue) =
        ⟨Nat.ofDigitChars 10 ds (digitValue d), 0 - ds.length, true⟩ :=
      gather_after (by rwa [hvalue])
    rw [hvalue, Int.zero_sub] at hgathered
    show ((takeScale negative (Decimal.Gathered.after ⟨digitValue d, 0, true⟩ _)
      ('e' :: '-' :: _) _).Yields _ _)
    rw [hgathered, takeScale, widen_yields_iff]
    exact take_exponent_power (by omega) (by omega) hn

/-- How a decimal below one is laid out. -/
theorem render_below_one (layout : Decimal.Layout) {d : Char} {ds : List Char} (hpos : 0 < n)
    (hdigits : Nat.toDigits 10 c = d :: ds) (hlength : ds.length < n) :
    layout.render ⟨c, -(n : Int)⟩ =
        ['0', '.'] ++ List.replicate (n - (Nat.toDigits 10 c).length) '0' ++ Nat.toDigits 10 c ∨
      layout.render ⟨c, -(n : Int)⟩ =
        leading d ds ++ 'e' :: '-' :: Nat.toDigits 10 (n - ds.length) := by
  rw [Decimal.Layout.render, hdigits]
  simp only [List.length_cons]
  by_cases hplain : layout.fewest ≤ ((ds.length + 1 : Nat) : Int) + -(n : Int) ∧
      ((ds.length + 1 : Nat) : Int) + -(n : Int) ≤ layout.most
  · left
    have hzeros : (-(((ds.length + 1 : Nat) : Int) + -(n : Int))).toNat = n - (ds.length + 1) := by
      omega
    rw [if_pos hplain, if_neg (by omega), if_neg (by omega), hzeros]
  · right
    have hpower : (((ds.length + 1 : Nat) : Int) + -(n : Int) - 1).natAbs = n - ds.length := by
      omega
    rw [if_neg hplain, if_pos (by omega), hpower]
    cases ds with
    | nil => rfl
    | cons a ds => simp [leading]

/-- A decimal below one is read as the quotient that it states, however it is laid out. -/
theorem take_unsigned_render (layout : Decimal.Layout) (hfew : c < 1 <<< 64) (hc : 0 < c)
    (hsmall : c < 10 ^ n) (hn : n ≤ 308) (offset : Nat) :
    (takeUnsigned negative (layout.render ⟨c, -(n : Int)⟩) offset).Yields (quotient negative c n)
      [] := by
  have hpos : 0 < n := by
    refine Nat.pos_of_ne_zero ?_
    rintro rfl
    omega
  have hlength := (Nat.length_toDigits_le_iff (by decide) hpos).2 hsmall
  obtain ⟨d, ds, hdigits⟩ := List.exists_cons_of_ne_nil (Nat.toDigits_ne_nil (n := c) (b := 10))
  have hless : ds.length < n := by
    rwa [hdigits] at hlength
  rcases render_below_one layout hpos hdigits hless with hplain | hpower
  · rw [hplain]
    exact take_unsigned_point hfew hn hlength
  · rw [hpower]
    exact take_unsigned_power hfew hn hdigits hless

end Layouts

end TileCourse.Json

namespace TileCourse

open Json

/-- A finite number in double precision without a sign is narrowed by its pattern. -/
theorem Single.of_double_of_pattern {pattern : Nat} (h : pattern < Decimal.Format.double.infinity) :
    Single.ofDouble (.ofPattern false pattern) =
      Single.ofPattern false (Decimal.narrow pattern) := by
  have hinfinity : Decimal.Format.double.infinity = 2047 * 2 ^ 52 := by decide
  have hbits : (Double.ofPattern false pattern).bits.toNat = pattern := by
    rw [Double.ofPattern, UInt64.toNat_ofNat']
    simp only [Bool.false_eq_true, if_false, Nat.zero_add]
    exact Nat.mod_eq_of_lt (by omega)
  have hmagnitude : (Double.ofPattern false pattern).magnitude = pattern := by
    rw [Double.magnitude, hbits]
    exact Nat.mod_eq_of_lt (by omega)
  have hsign : (Double.ofPattern false pattern).negative = false := by
    rw [Double.negative, hbits, decide_eq_false_iff_not]
    omega
  rw [ofDouble, hmagnitude, if_pos h, hsign]
  rfl

/-- A number is made of its sign and its magnitude. -/
theorem Single.of_pattern_magnitude (x : Single) :
    Single.ofPattern x.negative x.magnitude = x := by
  have hbits := x.bits.toNat_lt
  have hsum : (if x.negative then 1 <<< 31 else 0) + x.magnitude = x.bits.toNat := by
    rw [negative, magnitude]
    simp only [Nat.reduceShiftLeft, decide_eq_true_eq]
    split <;> omega
  rw [ofPattern, hsum, UInt32.ofNat_toNat]

/-- A zero of either sign is read back from its text. -/
theorem Single.survives_zero (negative : Bool) : (Single.ofPattern negative 0).Survives := by
  cases negative <;> exact ⟨_, ⟨⟨[], 3, by decide⟩, rfl, rfl⟩, by decide +kernel⟩

/-- The loudness one survives being written. -/
theorem Single.survives_one : Single.one.Survives :=
  ⟨_, ⟨⟨[], 3, by decide⟩, rfl, rfl⟩, by decide +kernel⟩

/-- A number between zero and one is read back from its text. -/
theorem Single.survives_below_one {x : Single} (hsign : x.negative = false)
    (hpos : 0 < x.magnitude) (hone : x.magnitude < 127 * 2 ^ 23) : x.Survives := by
  obtain ⟨c, n, hdigits⟩ := Decimal.exists_digits hpos hone
  have hfew := hdigits.few
  have hshort := hdigits.short
  refine ⟨quotient false c n, ?_, ?_⟩
  · have hfinite : x.isFinite = true := by
      rw [isFinite, decide_eq_true_eq]
      exact hone.trans (by decide)
    have htext : renderNumber (.single x) = Single.layout.render ⟨c, -(n : Int)⟩ := by
      rw [renderNumber, if_pos hfinite, Single.render, Decimal.renderPattern, if_neg hpos.ne',
        hsign, hdigits.found]
      simp
    have hyields : (takeUnsigned false (renderNumber (.single x)) 0).Yields (quotient false c n)
        [] := by
      rw [htext]
      exact take_unsigned_render Single.layout (by omega) hdigits.pos hdigits.small (by omega) 0
    unfold JsonNumber.ReadAs
    split
    · rename_i digits heq
      rw [heq] at hyields
      obtain ⟨first, others, left, htake, -⟩ := take_unsigned_parts hyields
      simp [takeDigits] at htake
    · exact hyields
  · obtain ⟨hfinite, -⟩ := Decimal.over_power_near hdigits.pos (by omega) hshort
    have hread : Decimal.narrow (Decimal.overPower (Decimal.roundRatio .double c 1) n) =
        x.magnitude := by
      have h := Decimal.read_back_eq hpos hone
      rw [Decimal.readBack, hdigits.found] at h
      simpa using h
    rw [quotient, Decoder.singleOf, of_double_of_pattern hfinite, hread, ← hsign,
      of_pattern_magnitude]

/-- A loudness is read back from its text: it lies between zero and one. -/
theorem Single.survives_clamp_to_unit {x : Single} (h : x.isFinite = true) :
    x.clampToUnit.Survives := by
  have hdefined : ¬Decimal.Format.single.infinity < x.magnitude := by
    rw [isFinite, decide_eq_true_eq] at h
    omega
  unfold clampToUnit
  by_cases hzero : x.magnitude = 0
  · rw [if_pos (.inl hzero), ← x.of_pattern_magnitude, hzero]
    exact survives_zero x.negative
  · rw [if_neg (not_or.2 ⟨hzero, hdefined⟩)]
    by_cases hsign : x.negative = true
    · rw [if_pos hsign]
      exact survives_zero false
    · rw [if_neg hsign]
      rw [Bool.not_eq_true] at hsign
      have hone : Single.one.magnitude = 127 * 2 ^ 23 := by decide
      rcases Nat.lt_trichotomy x.magnitude Single.one.magnitude with hless | hequal | hmore
      · rw [if_neg (by omega)]
        exact survives_below_one hsign (Nat.pos_of_ne_zero hzero) (hone ▸ hless)
      · rw [if_neg (by omega), ← x.of_pattern_magnitude, hsign, hequal]
        exact survives_one
      · rw [if_pos hmore]
        exact survives_one

end TileCourse
