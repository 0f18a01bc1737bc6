/-!
# Digits of naturals and integers

What the decimal digits of a natural are, beyond that they are read as the natural again, and how
an integer is written with them.
-/

namespace TileCourse.Text

/-- A natural is written with digits. -/
theorem is_digit_of_mem {n : Nat} {c : Char} (h : c ∈ Nat.toDigits 10 n) : c.isDigit = true :=
  Nat.isDigit_of_mem_toDigits (by decide) (by decide) h

/-- More digits never make a value smaller. -/
theorem le_of_digit_chars (cs : List Char) (value : Nat) :
    value ≤ Nat.ofDigitChars 10 cs value := by
  rw [Nat.ofDigitChars_eq_ofDigitChars_zero]
  have hpos : 0 < 10 ^ cs.length := Nat.pow_pos (by decide)
  exact Nat.le_trans (Nat.le_mul_of_pos_left value hpos) (Nat.le_add_right _ _)

/-- The digits of a natural other than zero start with another digit than zero. -/
theorem exists_head_digit {n : Nat} (h : 0 < n) :
    ∃ c cs, Nat.toDigits 10 n = c :: cs ∧ c ≠ '0' := by
  induction n using Nat.strongRecOn with
  | ind n ih =>
      rcases Nat.lt_or_ge n 10 with hless | hge
      · refine ⟨n.digitChar, [], Nat.toDigits_of_lt_base hless, ?_⟩
        have hdigits : ∀ m < 10, 0 < m → m.digitChar ≠ '0' := by decide
        exact hdigits n hless h
      · obtain ⟨c, cs, hcs, hc⟩ := ih (n / 10) (by omega) (by omega)
        refine ⟨c, cs ++ [(n % 10).digitChar], ?_, hc⟩
        rw [Nat.toDigits_of_base_le (by decide) hge, hcs, List.cons_append]

/-- Naturals with the same digits are the same. -/
theorem to_digits_inj {m n : Nat} : Nat.toDigits 10 m = Nat.toDigits 10 n ↔ m = n := by
  refine ⟨fun h => ?_, fun h => h ▸ rfl⟩
  have hvalue := congrArg (Nat.ofDigitChars 10 · 0) h
  simpa only [Nat.ofDigitChars_ten_toDigits] using hvalue

/-- Naturals that are written alike are the same. -/
theorem nat_repr_inj {m n : Nat} : m.repr = n.repr ↔ m = n := by
  rw [← String.toList_inj, Nat.toList_repr, Nat.toList_repr, to_digits_inj]

/-- An integer is written with a sign if it is negative, and then with the digits of its size. -/
theorem to_list_repr (n : Int) : n.repr.toList =
    if n < 0 then '-' :: Nat.toDigits 10 n.natAbs else Nat.toDigits 10 n.natAbs := by
  rw [Int.repr_eq_if]
  by_cases hneg : n < 0
  · have habs : (-n).toNat = n.natAbs := by omega
    rw [if_neg (by omega), if_pos hneg, String.toList_append, Nat.toList_repr, habs]
    rfl
  · have habs : n.toNat = n.natAbs := by omega
    rw [if_pos (by omega), if_neg hneg, Nat.toList_repr, habs]

/-- An integer is written with digits and a sign only. -/
theorem digit_or_sign_of_mem {n : Int} {c : Char} (h : c ∈ n.repr.toList) :
    c.isDigit = true ∨ c = '-' := by
  rw [to_list_repr] at h
  split at h
  · rcases List.mem_cons.1 h with rfl | h
    · exact .inr rfl
    · exact .inl (is_digit_of_mem h)
  · exact .inl (is_digit_of_mem h)

/-- Integers that are written alike are the same. -/
theorem repr_inj {m n : Int} : m.repr = n.repr ↔ m = n := by
  refine ⟨fun h => ?_, fun h => h ▸ rfl⟩
  have hlist := congrArg String.toList h
  rw [to_list_repr, to_list_repr] at hlist
  -- a sign is no digit, so both have one or neither has
  have hsign {a b : Nat} (heq : '-' :: Nat.toDigits 10 a = Nat.toDigits 10 b) : False := by
    have hminus := is_digit_of_mem (n := b) (c := '-') (heq ▸ List.mem_cons_self)
    exact absurd hminus (by decide)
  split at hlist <;> split at hlist
  · have habs := to_digits_inj.1 (List.cons.inj hlist).2
    omega
  · exact (hsign hlist).elim
  · exact (hsign hlist.symm).elim
  · have habs := to_digits_inj.1 hlist
    omega

/-- A list is parted in one way only at the first place of a character. -/
theorem parts_eq {mark : Char} {before before' after after' : List Char} (hbefore : mark ∉ before)
    (hbefore' : mark ∉ before') (h : before ++ mark :: after = before' ++ mark :: after') :
    before = before' ∧ after = after' := by
  induction before generalizing before' with
  | nil =>
      cases before' with
      | nil => exact ⟨rfl, (List.cons.inj h).2⟩
      | cons c cs => exact absurd ((List.cons.inj h).1 ▸ List.mem_cons_self) hbefore'
  | cons c cs ih =>
      cases before' with
      | nil => exact absurd ((List.cons.inj h).1 ▸ List.mem_cons_self) hbefore
      | cons d ds =>
          obtain ⟨rfl, hrest⟩ := List.cons.inj h
          obtain ⟨rfl, hafter⟩ := ih (List.not_mem_of_not_mem_cons hbefore)
            (List.not_mem_of_not_mem_cons hbefore') hrest
          exact ⟨rfl, hafter⟩

end TileCourse.Text
