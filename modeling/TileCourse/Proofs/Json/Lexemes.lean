import Mathlib.Data.Nat.Init
import TileCourse.Json.Lexeme
import TileCourse.Json.Printer
import TileCourse.Proofs.Text.Digits

/-!
# Taking scalars off an input

What the readers of texts and numbers make of what the printer writes. A number is read alike
wherever it stands, as long as something follows that cannot belong to it; `take_unsigned_append`
says so without any regard to how numbers are written.
-/

namespace TileCourse.Json

/-- A complete scalar has been taken, and this is what follows it. -/
def Taken.Yields {α : Type} {bound : Nat} (taken : Taken α bound) (a : α) (rest : List Char) :
    Prop :=
  ∃ remainder, taken = .complete (.ok a) remainder ∧ remainder.chars = rest

/-- A complete scalar yields its value and leaves the characters after it. -/
@[simp] theorem complete_yields_iff {α : Type} {bound : Nat} {value : Except Fault α}
    {remainder : Remainder bound} {a : α} {rest : List Char} :
    (Taken.complete value remainder).Yields a rest ↔ value = .ok a ∧ remainder.chars = rest := by
  constructor
  · rintro ⟨_, ⟨⟩, rfl⟩
    exact ⟨rfl, rfl⟩
  · rintro ⟨rfl, rfl⟩
    exact ⟨remainder, rfl, rfl⟩

/-- A broken scalar yields nothing. -/
@[simp] theorem broken_yields_iff {α : Type} {bound : Nat} {use skip : Fault} {a : α}
    {rest : List Char} : (Taken.broken use skip : Taken α bound).Yields a rest ↔ False := by
  simp [Taken.Yields]

/-- A wider bound makes no difference to what is yielded. -/
@[simp] theorem widen_yields_iff {α : Type} {m n : Nat} {taken : Taken α m} {h : m ≤ n} {a : α}
    {rest : List Char} : (taken.widen h).Yields a rest ↔ taken.Yields a rest := by
  cases taken <;> simp [Taken.widen, Remainder.widen]

/-! ### Numbers -/

/-- A character that may go on with a number. -/
def continuesNumber (c : Char) : Bool := c.isDigit || c == '.' || c == 'e' || c == 'E'

/-- What follows cannot belong to a number before it. -/
def Delimited (rest : List Char) : Prop := ∀ c ∈ rest.head?, continuesNumber c = false

section Numbers

variable {negative : Bool} {gathered : Decimal.Gathered} {cs rest more : List Char}
  {offset : Nat} {number : JsonNumber}

/-- What cannot belong to a number does not start with a digit. -/
theorem Delimited.not_digit (h : Delimited rest) : ∀ c ∈ rest.head?, c.isDigit = false := by
  intro c hc
  have hfalse := h c hc
  simp only [continuesNumber, Bool.or_eq_false_iff] at hfalse
  exact hfalse.1.1.1

/-- Digits end where something else follows. -/
theorem take_digits_append (h : ∀ c ∈ more.head?, c.isDigit = false) (cs : List Char) :
    takeDigits (cs ++ more) = ((takeDigits cs).1, (takeDigits cs).2 ++ more) := by
  induction cs with
  | nil =>
      cases more with
      | nil => rfl
      | cons c more =>
          have hc : c.isDigit = false := h c rfl
          simp [takeDigits, hc]
  | cons c cs ih =>
      rw [List.cons_append, takeDigits, takeDigits]
      split
      · rw [ih]
      · rfl

/-! The offset of a number matters only if it is out of range. -/

/-- The value of a number with a point does not depend on where it stands. -/
theorem finish_double_eq_ok_iff (other : Nat) :
    finishDouble negative gathered offset = .ok number ↔
      finishDouble negative gathered other = .ok number := by
  unfold finishDouble
  cases gathered.pattern? <;> simp

/-- The value of a number without a point does not depend on where it stands. -/
theorem finish_integer_eq_ok_iff (other : Nat) :
    finishInteger negative gathered offset = .ok number ↔
      finishInteger negative gathered other = .ok number := by
  unfold finishInteger
  simp only
  split
  · exact finish_double_eq_ok_iff other
  · split
    · exact Iff.rfl
    · split
      · exact Iff.rfl
      · exact finish_double_eq_ok_iff other

/-- The value of a number with an exponent does not depend on where it stands. -/
theorem finish_exponent_eq_ok_iff {lowers : Bool} {digits : List Nat} (other : Nat) :
    finishExponent negative gathered lowers digits offset = .ok number ↔
      finishExponent negative gathered lowers digits other = .ok number := by
  unfold finishExponent
  split
  · exact finish_double_eq_ok_iff _
  · split
    · simp
    · exact Iff.rfl

/-- An exponent is a sign, if one likes, and digits. -/
theorem take_exponent_yields_iff :
    (takeExponent negative gathered cs offset).Yields number rest ↔
      (takeDigits (takeSign cs offset).2.1).1 ≠ [] ∧
        (takeDigits (takeSign cs offset).2.1).2 = rest ∧
        finishExponent negative gathered (takeSign cs offset).1
          (takeDigits (takeSign cs offset).2.1).1 0 = .ok number := by
  unfold takeExponent
  split
  rename_i lowers unsigned start hsign
  split
  · rename_i hdigits
    split <;> simp [hsign, hdigits]
  · rename_i digits left hne hdigits
    have hne : digits ≠ [] := hne
    rw [complete_yields_iff, finish_exponent_eq_ok_iff 0]
    simp [hsign, hdigits, hne, and_comm]

/-- A sign is taken in the same way if more characters follow. -/
theorem take_sign_append (hne : cs ≠ []) (more : List Char) :
    takeSign (cs ++ more) offset =
      ((takeSign cs offset).1, (takeSign cs offset).2.1 ++ more, (takeSign cs offset).2.2) := by
  obtain ⟨c, cs, rfl⟩ := List.exists_cons_of_ne_nil hne
  rw [List.cons_append]
  unfold takeSign
  split <;> split <;> simp_all

/-- An exponent is taken in the same way if what follows cannot belong to it. -/
theorem take_exponent_append (h : (takeExponent negative gathered cs offset).Yields number [])
    (hmore : Delimited more) (other : Nat) :
    (takeExponent negative gathered (cs ++ more) other).Yields number more := by
  have hne : cs ≠ [] := by
    rintro rfl
    exact absurd (take_exponent_yields_iff.1 h).1 (by simp [takeSign, takeDigits])
  have hsign (start : Nat) : (takeSign cs start).1 = (takeSign cs offset).1 ∧
      (takeSign cs start).2.1 = (takeSign cs offset).2.1 := by
    unfold takeSign
    split <;> exact ⟨rfl, rfl⟩
  rw [take_exponent_yields_iff] at h ⊢
  rw [take_sign_append hne, (hsign other).1, (hsign other).2,
    take_digits_append hmore.not_digit]
  exact ⟨h.1, by rw [h.2.1, List.nil_append], h.2.2⟩

/-- What comes after the digits is taken in the same way if what follows cannot belong to it. -/
theorem take_scale_append (h : (takeScale negative gathered cs offset).Yields number [])
    (hmore : Delimited more) (other : Nat) :
    (takeScale negative gathered (cs ++ more) other).Yields number more := by
  unfold takeScale at h
  split at h
  · rw [widen_yields_iff] at h
    rw [List.cons_append, takeScale, widen_yields_iff]
    exact take_exponent_append h hmore _
  · rw [widen_yields_iff] at h
    rw [List.cons_append, takeScale, widen_yields_iff]
    exact take_exponent_append h hmore _
  · obtain ⟨hfinish, rfl⟩ := complete_yields_iff.1 h
    rw [List.nil_append, takeScale]
    · exact complete_yields_iff.2 ⟨(finish_double_eq_ok_iff other).1 hfinish, rfl⟩
    · rintro rest rfl
      exact absurd (hmore 'e' rfl) (by decide)
    · rintro rest rfl
      exact absurd (hmore 'E' rfl) (by decide)

/-- A fraction yields a number if it has digits and what comes after them yields the number. -/
theorem take_fraction_yields_iff :
    (takeFraction negative gathered cs offset).Yields number rest ↔
      (takeDigits cs).1 ≠ [] ∧
        (takeScale negative (gathered.after (takeDigits cs).1) (takeDigits cs).2
          (offset + (takeDigits cs).1.length)).Yields number rest := by
  unfold takeFraction
  split
  · rename_i hdigits
    split <;> simp [hdigits]
  · rename_i digits left hne hdigits
    have hne : digits ≠ [] := hne
    rw [widen_yields_iff]
    generalize takeDigits cs = taken at hdigits ⊢
    subst hdigits
    simp [hne]

/-- A fraction is taken in the same way if what follows cannot belong to it. -/
theorem take_fraction_append (h : (takeFraction negative gathered cs offset).Yields number [])
    (hmore : Delimited more) (other : Nat) :
    (takeFraction negative gathered (cs ++ more) other).Yields number more := by
  rw [take_fraction_yields_iff] at h ⊢
  rw [take_digits_append hmore.not_digit]
  exact ⟨h.1, take_scale_append h.2 hmore _⟩

/-- What the characters after the first digits of a number make of it, wherever they stand. -/
inductive AfterDigits (negative : Bool) (gathered : Decimal.Gathered) (number : JsonNumber) :
    List Char → List Char → Prop where
  | fraction {after rest : List Char}
      (h : ∀ offset, (takeFraction negative gathered after offset).Yields number rest) :
      AfterDigits negative gathered number ('.' :: after) rest
  | exponent {letter : Char} {after rest : List Char} (hletter : letter = 'e' ∨ letter = 'E')
      (h : ∀ offset, (takeExponent negative gathered after offset).Yields number rest) :
      AfterDigits negative gathered number (letter :: after) rest
  | nothing {rest : List Char} (hrest : ∀ c ∈ rest.head?, c ≠ '.' ∧ c ≠ 'e' ∧ c ≠ 'E')
      (h : finishInteger negative gathered 0 = .ok number) :
      AfterDigits negative gathered number rest rest

/-- What comes after the first digits makes the same of them if what follows cannot belong to it. -/
theorem AfterDigits.append {left : List Char} (h : AfterDigits negative gathered number left [])
    (hmore : Delimited more) : AfterDigits negative gathered number (left ++ more) more := by
  cases h with
  | fraction h => exact .fraction fun offset => take_fraction_append (h 0) hmore offset
  | exponent hletter h =>
      exact .exponent hletter fun offset => take_exponent_append (h 0) hmore offset
  | nothing hrest h =>
      refine .nothing (fun c hc => ?_) h
      have hfalse := hmore c hc
      simp only [continuesNumber, Bool.or_eq_false_iff, beq_eq_false_iff_ne] at hfalse
      exact ⟨hfalse.1.1.2, hfalse.1.2, hfalse.2⟩

/-- The digits of a number, without a leading zero, and what comes after them. -/
theorem take_unsigned_yields {first : Nat} {others : List Nat} {left : List Char}
    (hdigits : takeDigits cs = (first :: others, left)) (hzero : first = 0 → others = [])
    (hafter : AfterDigits negative ((first :: others).foldl Decimal.Gathered.before .start) number
      left rest) :
    (takeUnsigned negative cs offset).Yields number rest := by
  unfold takeUnsigned
  split
  · rename_i hnone
    rw [hdigits] at hnone
    cases hnone
  · rename_i hleading
    rw [hdigits] at hleading
    cases hleading
    cases hzero rfl
  · rename_i found more final hlead hfound
    rw [hdigits] at hfound
    cases hfound
    cases hafter with
    | fraction h => exact widen_yields_iff.2 (h _)
    | exponent hletter h =>
        obtain rfl | rfl := hletter
        · exact widen_yields_iff.2 (h _)
        · exact widen_yields_iff.2 (h _)
    | nothing hrest h =>
        simp only
        split
        · exact absurd rfl (hrest '.' rfl).1
        · exact absurd rfl (hrest 'e' rfl).2.1
        · exact absurd rfl (hrest 'E' rfl).2.2
        · exact complete_yields_iff.2 ⟨(finish_integer_eq_ok_iff _).1 h, rfl⟩

/-- A number that takes up all of an input is made of such parts. -/
theorem take_unsigned_parts (h : (takeUnsigned negative cs offset).Yields number []) :
    ∃ first others left, takeDigits cs = (first :: others, left) ∧ (first = 0 → others = []) ∧
      AfterDigits negative ((first :: others).foldl Decimal.Gathered.before .start) number
        left [] := by
  have hnil : Delimited [] := by simp [Delimited]
  unfold takeUnsigned at h
  split at h
  · split at h <;> simp at h
  · simp at h
  · rename_i first others left hlead hdigits
    refine ⟨first, others, left, hdigits, ?_, ?_⟩
    · intro hfirst
      cases others with
      | nil => rfl
      | cons other others => exact absurd rfl (hlead other others hfirst)
    · simp only at h
      split at h
      · refine .fraction fun other => ?_
        have h := take_fraction_append (widen_yields_iff.1 h) hnil other
        rwa [List.append_nil] at h
      · refine .exponent (.inl rfl) fun other => ?_
        have h := take_exponent_append (widen_yields_iff.1 h) hnil other
        rwa [List.append_nil] at h
      · refine .exponent (.inr rfl) fun other => ?_
        have h := take_exponent_append (widen_yields_iff.1 h) hnil other
        rwa [List.append_nil] at h
      · obtain ⟨hfinish, rfl⟩ := complete_yields_iff.1 h
        exact .nothing (by simp) ((finish_integer_eq_ok_iff 0).1 hfinish)

/-- A number is read alike in front of whatever cannot belong to it. -/
theorem take_unsigned_append (h : (takeUnsigned negative cs offset).Yields number [])
    (hmore : Delimited more) (other : Nat) :
    (takeUnsigned negative (cs ++ more) other).Yields number more := by
  obtain ⟨first, others, left, hdigits, hzero, hafter⟩ := take_unsigned_parts h
  refine take_unsigned_yields ?_ hzero (hafter.append hmore)
  rw [take_digits_append hmore.not_digit, hdigits]

/-! ### Integers -/

/-- Of digits all are taken. -/
theorem take_digits_eq (h : ∀ c ∈ cs, c.isDigit = true) :
    takeDigits cs = (cs.map digitValue, []) := by
  induction cs with
  | nil => rfl
  | cons c cs ih =>
      obtain ⟨hc, hcs⟩ := List.forall_mem_cons.1 h
      rw [takeDigits, if_pos hc, ih hcs]
      rfl

/-- Digits are gathered to their value as long as 64 bits can hold it. -/
theorem gather_digits {value : Nat} (h : Nat.ofDigitChars 10 cs value < 1 <<< 64) :
    (cs.map digitValue).foldl Decimal.Gathered.before ⟨value, 0, true⟩ =
      ⟨Nat.ofDigitChars 10 cs value, 0, true⟩ := by
  induction cs generalizing value with
  | nil => rfl
  | cons c cs ih =>
      rw [Nat.ofDigitChars_cons, Nat.mul_comm] at h ⊢
      have hfits : value * 10 + digitValue c < 1 <<< 64 :=
        Nat.lt_of_le_of_lt (Text.le_of_digit_chars cs _) h
      rw [List.map_cons, List.foldl_cons, Decimal.Gathered.before,
        if_pos (by simpa [Decimal.Gathered.fits] using hfits), ← ih h]
      rfl

/-- Only the digit zero is worth nothing. -/
theorem digit_value_eq_zero {c : Char} (hc : c.isDigit = true) (h : digitValue c = 0) :
    c = '0' := by
  simp only [Char.isDigit, Bool.and_eq_true, decide_eq_true_eq, UInt32.le_iff_toNat_le] at hc
  have hlow : 48 ≤ c.toNat := hc.1
  have hvalue : c.toNat = 48 := by
    simp only [digitValue, Char.reduceToNat] at h
    omega
  exact Char.toNat_inj.1 hvalue

/-- The digits of a natural are a number of their own. -/
theorem take_unsigned_to_digits {n : Nat} (h : n < 1 <<< 64)
    (hfinish : finishInteger negative ⟨n, 0, true⟩ 0 = .ok number) :
    (takeUnsigned negative (Nat.toDigits 10 n) offset).Yields number [] := by
  obtain ⟨c, cs, hcs⟩ := List.exists_cons_of_ne_nil (Nat.toDigits_ne_nil (n := n) (b := 10))
  have hdigits := take_digits_eq fun c hc => Text.is_digit_of_mem (n := n) hc
  have hgathered : ((Nat.toDigits 10 n).map digitValue).foldl Decimal.Gathered.before ⟨0, 0, true⟩ =
      ⟨Nat.ofDigitChars 10 (Nat.toDigits 10 n) 0, 0, true⟩ :=
    gather_digits (by rwa [Nat.ofDigitChars_ten_toDigits])
  rw [Nat.ofDigitChars_ten_toDigits] at hgathered
  rw [hcs, List.map_cons] at hdigits hgathered
  refine take_unsigned_yields (hcs ▸ hdigits) ?_ (.nothing (by simp) ?_)
  · intro hc
    rcases Nat.eq_zero_or_pos n with rfl | hpos
    · cases hcs
      rfl
    · obtain ⟨d, ds, hds, hd⟩ := Text.exists_head_digit hpos
      rw [hcs] at hds
      cases hds
      exact absurd (digit_value_eq_zero (Text.is_digit_of_mem (n := n) (by simp [hcs])) hc) hd
  · rw [Decimal.Gathered.start, hgathered]
    exact hfinish

end Numbers

/-! ### Texts -/

section Texts

variable {bound offset : Nat} {text : Except Fault (List Char)} {rest : List Char} {c d : Char}

/-- A quote ends a text. -/
theorem take_text_quote (hbound : ('"' :: rest).length ≤ bound) :
    takeText ('"' :: rest) offset text hbound =
      .complete (text.map fun chars => String.ofList chars.reverse) ⟨rest, offset + 1, hbound⟩ := by
  rw [takeText.eq_def]
  exact if_pos rfl

/-- A plain character stands for itself. -/
theorem take_text_plain (hquote : c ≠ '"') (hslash : c ≠ '\\') (hcontrol : ¬ c.toNat < 0x20)
    (hbound : (c :: rest).length ≤ bound) :
    takeText (c :: rest) offset text hbound =
      takeText rest (offset + c.utf8Size) (push text c) (Nat.le_of_succ_le hbound) := by
  rw [takeText.eq_def]
  simp only
  rw [if_neg hquote, if_pos hslash, if_neg hcontrol]

/-- A short escape stands for its character. -/
theorem take_text_short (hshort : shortEscape? c = some d)
    (hbound : ('\\' :: c :: rest).length ≤ bound) :
    takeText ('\\' :: c :: rest) offset text hbound =
      takeText rest (offset + 2) (push text d)
        (Nat.le_of_succ_le (Nat.le_of_succ_le hbound)) := by
  have hunit : c ≠ 'u' := by
    rintro rfl
    cases hshort
  rw [takeText.eq_def]
  simp only [Char.reduceEq, ne_eq, not_true_eq_false, if_false, if_neg hunit, hshort]

/-- An escaped code unit that is no half of a pair stands for its character. -/
theorem take_text_unit (text : Except Fault (List Char)) (offset : Nat) {unit : Nat}
    {after : List Char} (hunit : takeUnit rest (offset + 2) = .ok (unit, after))
    (htrailing : isTrailingUnit unit = false)
    (hleading : isLeadingUnit unit = false) (hbound : ('\\' :: 'u' :: rest).length ≤ bound) :
    takeText ('\\' :: 'u' :: rest) offset text hbound =
      takeText after (offset + 6) (push text (Char.ofNat unit))
        (Nat.le_trans (Nat.le_of_lt (take_unit_length hunit))
          (Nat.le_of_succ_le (Nat.le_of_succ_le hbound))) := by
  rw [takeText.eq_def]
  simp only [Char.reduceEq, ne_eq, not_true_eq_false, if_false, if_true]
  split
  · rename_i hfault
    rw [hunit] at hfault
    cases hfault
  · rename_i hfound
    rw [hunit] at hfound
    cases hfound
    simp only [htrailing, hleading, Bool.false_eq_true, if_false]

/-- The escape of a control character is read as the character. -/
theorem take_unit_control (h : c.toNat < 0x20) (rest : List Char) :
    takeUnit ('0' :: '0' :: (c.toNat / 16).digitChar :: (c.toNat % 16).digitChar :: rest) offset =
      .ok (c.toNat, rest) := by
  have hvalues : ∀ n < 0x20, unitValue? '0' '0' (n / 16).digitChar (n % 16).digitChar = some n := by
    decide
  simp only [takeUnit, hvalues c.toNat h]

/-- A character is read again from its form inside quotes. -/
theorem take_text_escaped_char (text : Except Fault (List Char)) (offset : Nat) (c : Char)
    (rest : List Char)
    (hbound : (escapeChar c ++ rest).length ≤ bound) (hrest : rest.length ≤ bound) :
    ∃ after, takeText (escapeChar c ++ rest) offset text hbound =
      takeText rest after (push text c) hrest := by
  revert hbound
  unfold escapeChar
  split
  case h_8 hquote hslash _ _ _ _ _ =>
      split
      · rename_i hcontrol
        intro hbound
        have hvalue : ∀ n < 0x20, isTrailingUnit n = false ∧ isLeadingUnit n = false := by decide
        have hunit := hvalue c.toNat hcontrol
        have htext := take_text_unit text offset
          (take_unit_control hcontrol rest) hunit.1 hunit.2 hbound
        rw [Char.ofNat_toNat] at htext
        exact ⟨_, htext⟩
      · rename_i hcontrol
        exact fun hbound => ⟨_, take_text_plain hquote hslash hcontrol hbound⟩
  all_goals exact fun hbound => ⟨_, take_text_short rfl hbound⟩

/-- A text is read again up to its closing quote. -/
theorem take_text_escaped (s read rest : List Char) (offset : Nat)
    (hbound : (s.flatMap escapeChar ++ '"' :: rest).length ≤ bound) :
    (takeText (s.flatMap escapeChar ++ '"' :: rest) offset (.ok read) hbound).Yields
      (String.ofList (read.reverse ++ s)) rest := by
  induction s generalizing offset read with
  | nil =>
      rw [List.append_nil]
      exact take_text_quote hbound ▸ complete_yields_iff.2 ⟨rfl, rfl⟩
  | cons c s ih =>
      revert hbound
      rw [List.flatMap_cons, List.append_assoc]
      intro hbound
      have hrest : (s.flatMap escapeChar ++ '"' :: rest).length ≤ bound :=
        Nat.le_trans (by simp) hbound
      obtain ⟨after, hchar⟩ :=
        take_text_escaped_char (.ok read) offset c _ hbound hrest
      rw [hchar, push, Except.map]
      have h := ih (c :: read) after hrest
      rwa [List.reverse_cons, List.append_assoc, List.singleton_append] at h

end Texts

end TileCourse.Json
