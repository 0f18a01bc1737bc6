import TileCourse.Text.Blank
import TileCourse.Decimal.Reading
import TileCourse.Json.Node

/-!
# The scalars of a JSON text

How the text of a scalar is taken off the front of an input: literals, numbers, and texts with
their escapes. A number may be too large and a text may hold half of a surrogate pair; either is
still complete, so that it can be passed over.
-/

namespace TileCourse.Json

/-- What is left of an input after a part of it has been read. -/
structure Remainder (bound : Nat) where
  /-- The characters. -/
  chars : List Char
  /-- The offset of the first of them. -/
  offset : Nat
  /-- Something has been read. -/
  shorter : chars.length < bound

/-- The same characters, left of a longer input. -/
def Remainder.widen {m n : Nat} (rest : Remainder m) (h : m ≤ n) : Remainder n :=
  ⟨rest.chars, rest.offset, Nat.lt_of_lt_of_le rest.shorter h⟩

/-- White space between the parts of a value. -/
def isSpace (c : Char) : Bool :=
  c == ' ' || c == '\n' || c == '\t' || c == '\r'

/-- Skip white space; the offset moves along. -/
def skipSpace : List Char → Nat → List Char × Nat
  | [], offset => ([], offset)
  | c :: cs, offset => if isSpace c then skipSpace cs (offset + 1) else (c :: cs, offset)

/-- Skipping space leaves no more text than there was. -/
theorem skip_space_length (cs : List Char) (offset : Nat) :
    (skipSpace cs offset).1.length ≤ cs.length := by
  induction cs generalizing offset with
  | nil => simp [skipSpace]
  | cons c cs ih =>
    rw [skipSpace]
    split
    · exact Nat.le_succ_of_le (ih _)
    · exact Nat.le_refl _

/-- The outcome of taking a scalar off an input of `bound` characters. -/
inductive Taken (α : Type) (bound : Nat) where
  /-- A complete scalar, with what follows it. -/
  | complete (value : Except Fault α) (rest : Remainder bound)
  /-- The input breaks off or goes wrong inside the scalar: the fault for one who wants its value,
  and the fault for one who passes over it. -/
  | broken (use skip : Fault)

/-- The same outcome for a longer input. -/
def Taken.widen {α : Type} {m n : Nat} (taken : Taken α m) (h : m ≤ n) : Taken α n :=
  match taken with
  | .complete value rest => .complete value (rest.widen h)
  | .broken use skip => .broken use skip

/-- The same outcome with another form of the value. -/
def Taken.map {α β : Type} {bound : Nat} (f : α → β) (taken : Taken α bound) : Taken β bound :=
  match taken with
  | .complete value rest => .complete (value.map f) rest
  | .broken use skip => .broken use skip

/-! ### Literals -/

/-- Take the characters of a literal off the front. -/
def takeLetters : List Char → List Char → Nat → Except Fault (List Char × Nat)
  | [], cs, offset => .ok (cs, offset)
  | _ :: _, [], offset => .error ⟨.endInValue, offset⟩
  | letter :: letters, c :: cs, offset =>
    if c = letter then takeLetters letters cs (offset + 1)
    else .error ⟨.expectedLiteral, offset + 1⟩

/-- Taking the letters of a word leaves no more text than there was. -/
theorem take_letters_length {letters cs : List Char} {offset : Nat} {rest : List Char × Nat}
    (h : takeLetters letters cs offset = .ok rest) : rest.1.length ≤ cs.length := by
  induction letters generalizing cs offset with
  | nil =>
    cases h
    exact Nat.le_refl _
  | cons letter letters ih =>
    cases cs with
    | nil => cases h
    | cons c cs =>
      rw [takeLetters] at h
      split at h
      · exact Nat.le_succ_of_le (ih h)
      · cases h

/-- Take a literal whose first character has been seen at `offset`. -/
def takeLiteral (value : Scalar) (letters cs : List Char) (offset : Nat) :
    Taken Scalar (cs.length + 1) :=
  match h : takeLetters letters cs (offset + 1) with
  | .ok rest => .complete (.ok value) ⟨rest.1, rest.2, Nat.lt_succ_of_le (take_letters_length h)⟩
  | .error fault => .broken fault fault

/-! ### Numbers -/

/-- The value of a decimal digit. -/
def digitValue (c : Char) : Nat := c.toNat - '0'.toNat

/-- Take the digits off the front, together with their number. -/
def takeDigits : List Char → List Nat × List Char
  | [] => ([], [])
  | c :: cs =>
    if c.isDigit then
      let (digits, rest) := takeDigits cs
      (digitValue c :: digits, rest)
    else ([], c :: cs)

/-- Digits that are taken and the text after them are as long as the text before. -/
theorem take_digits_length (cs : List Char) :
    (takeDigits cs).2.length + (takeDigits cs).1.length = cs.length := by
  induction cs with
  | nil => rfl
  | cons c cs ih =>
    rw [takeDigits]
    split
    · simp only [List.length_cons]
      omega
    · simp

/-- The greatest power of ten that is kept as a number. -/
def greatestExponent : Nat := 1 <<< 31 - 1

/-- The value of the digits of an exponent, or how many of them it takes to exceed the greatest
one. -/
def exponentValue : List Nat → Nat → Nat → Except Nat Nat
  | [], value, _ => .ok value
  | digit :: rest, value, count =>
    if value * 10 + digit ≤ greatestExponent then
      exponentValue rest (value * 10 + digit) (count + 1)
    else .error (count + 1)

/-- The number with the digits gathered so far. -/
def finishDouble (negative : Bool) (gathered : Decimal.Gathered) (stop : Nat) :
    Except Fault JsonNumber :=
  match gathered.pattern? with
  | some pattern => .ok (.double (.ofPattern negative pattern))
  | none => .error ⟨.numberOutOfRange, stop⟩

/-- The number with gathered digits and the digits of an exponent that start at `offset`. -/
def finishExponent (negative : Bool) (gathered : Decimal.Gathered) (lowers : Bool)
    (digits : List Nat) (offset : Nat) : Except Fault JsonNumber :=
  match exponentValue digits 0 0 with
  | .ok value =>
    let exponent : Int := if lowers then gathered.exponent - value else gathered.exponent + value
    finishDouble negative { gathered with exponent } (offset + digits.length)
  | .error seen =>
    if gathered.significand ≠ 0 ∧ !lowers then .error ⟨.numberOutOfRange, offset + seen⟩
    else .ok (.double (.ofPattern negative 0))

/-- Take the sign of an exponent off the front: whether it is a minus, and what follows. -/
def takeSign (cs : List Char) (offset : Nat) : Bool × List Char × Nat :=
  match cs with
  | '+' :: rest => (false, rest, offset + 1)
  | '-' :: rest => (true, rest, offset + 1)
  | _ => (false, cs, offset)

/-- Taking a sign, if there is one, leaves no more text than there was. -/
theorem take_sign_length (cs : List Char) (offset : Nat) :
    (takeSign cs offset).2.1.length ≤ cs.length := by
  unfold takeSign
  split <;> simp

/-- Take an exponent off the front, after its letter. -/
def takeExponent (negative : Bool) (gathered : Decimal.Gathered) (cs : List Char)
    (offset : Nat) : Taken JsonNumber (cs.length + 1) :=
  match hsign : takeSign cs offset with
  | (lowers, unsigned, start) =>
    match hdigits : takeDigits unsigned with
    | ([], _) =>
      match unsigned with
      | [] => .broken ⟨.endInValue, start⟩ ⟨.invalidNumber, start⟩
      | _ :: _ => .broken ⟨.invalidNumber, start + 1⟩ ⟨.invalidNumber, start + 1⟩
    | (digits, rest) =>
      .complete (finishExponent negative gathered lowers digits start)
        ⟨rest, start + digits.length, by
          have hs := take_sign_length cs offset
          have hd := take_digits_length unsigned
          rw [hsign] at hs
          rw [hdigits] at hd
          simp only at hs hd
          omega⟩

/-- Take what may follow the digits of a number: an exponent, or nothing. -/
def takeScale (negative : Bool) (gathered : Decimal.Gathered) (cs : List Char) (offset : Nat) :
    Taken JsonNumber (cs.length + 1) :=
  match cs with
  | 'e' :: rest => (takeExponent negative gathered rest (offset + 1)).widen (by simp)
  | 'E' :: rest => (takeExponent negative gathered rest (offset + 1)).widen (by simp)
  | rest => .complete (finishDouble negative gathered offset) ⟨rest, offset, Nat.lt_succ_self _⟩

/-- Take a fraction off the front, after its point. -/
def takeFraction (negative : Bool) (gathered : Decimal.Gathered) (cs : List Char)
    (offset : Nat) : Taken JsonNumber (cs.length + 1) :=
  match hdigits : takeDigits cs with
  | ([], _) =>
    match cs with
    | [] => .broken ⟨.endInValue, offset⟩ ⟨.invalidNumber, offset⟩
    | _ :: _ => .broken ⟨.invalidNumber, offset + 1⟩ ⟨.invalidNumber, offset + 1⟩
  | (digits, rest) =>
    (takeScale negative (gathered.after digits) rest (offset + digits.length)).widen (by
      have hd := take_digits_length cs
      rw [hdigits] at hd
      simp only at hd
      omega)

/-- The number whose digits have no fraction and no exponent. -/
def finishInteger (negative : Bool) (gathered : Decimal.Gathered) (stop : Nat) :
    Except Fault JsonNumber :=
  let n := gathered.significand
  if !gathered.exact then finishDouble negative gathered stop
  else if !negative then .ok (.integer n)
  else if 0 < n ∧ n ≤ 1 <<< 63 then .ok (.integer (-n))
  else finishDouble true gathered stop

/-- Take a number off the front, after its sign. -/
def takeUnsigned (negative : Bool) (cs : List Char) (offset : Nat) :
    Taken JsonNumber cs.length :=
  match hdigits : takeDigits cs with
  | ([], _) =>
    match cs with
    | [] => .broken ⟨.endInValue, offset⟩ ⟨.invalidNumber, offset⟩
    | _ :: _ => .broken ⟨.invalidNumber, offset + 1⟩ ⟨.invalidNumber, offset + 1⟩
  | (0 :: _ :: _, _) => .broken ⟨.invalidNumber, offset + 2⟩ ⟨.invalidNumber, offset + 2⟩
  | (first :: others, rest) =>
    have hd : rest.length < cs.length := by
      have hd := take_digits_length cs
      rw [hdigits] at hd
      simp only [List.length_cons] at hd
      omega
    let gathered := (first :: others).foldl Decimal.Gathered.before .start
    let stop := offset + (others.length + 1)
    match rest with
    | '.' :: rest =>
      (takeFraction negative gathered rest (stop + 1)).widen (by
        simp only [List.length_cons] at hd
        omega)
    | 'e' :: rest =>
      (takeExponent negative gathered rest (stop + 1)).widen (by
        simp only [List.length_cons] at hd
        omega)
    | 'E' :: rest =>
      (takeExponent negative gathered rest (stop + 1)).widen (by
        simp only [List.length_cons] at hd
        omega)
    | rest => .complete (finishInteger negative gathered stop) ⟨rest, stop, hd⟩

/-! ### Texts -/

/-- The value of a hexadecimal digit. -/
def hexValue? (c : Char) : Option Nat :=
  let n := c.toNat
  if '0'.toNat ≤ n ∧ n ≤ '9'.toNat then some (n - '0'.toNat)
  else if 'a'.toNat ≤ n ∧ n ≤ 'f'.toNat then some (n - 'a'.toNat + 10)
  else if 'A'.toNat ≤ n ∧ n ≤ 'F'.toNat then some (n - 'A'.toNat + 10)
  else none

/-- The fault of an escape without four hexadecimal digits. Four bytes are looked at, whatever
they are. -/
def unitFault (cs : List Char) (offset : Nat) : Fault :=
  if 4 ≤ Text.byteSize (cs.take 4) then ⟨.invalidEscape, offset + 4⟩
  else ⟨.endInText, offset + Text.byteSize cs⟩

/-- The number that four hexadecimal digits stand for. -/
def unitValue? (a b c d : Char) : Option Nat :=
  match hexValue? a, hexValue? b, hexValue? c, hexValue? d with
  | some a, some b, some c, some d => some (((a * 16 + b) * 16 + c) * 16 + d)
  | _, _, _, _ => none

/-- Take the four hexadecimal digits of an escape off the front. -/
def takeUnit (cs : List Char) (offset : Nat) : Except Fault (Nat × List Char) :=
  match cs with
  | a :: b :: c :: d :: rest =>
    match unitValue? a b c d with
    | some unit => .ok (unit, rest)
    | none => .error (unitFault cs offset)
  | _ => .error (unitFault cs offset)

/-- An escaped code unit takes up some of the text. -/
theorem take_unit_length {cs : List Char} {offset : Nat} {result : Nat × List Char}
    (h : takeUnit cs offset = .ok result) : result.2.length < cs.length := by
  unfold takeUnit at h
  split at h
  · split at h
    · cases h
      simp only [List.length_cons]
      omega
    · cases h
  · cases h

/-- The character that a short escape stands for. -/
def shortEscape? : Char → Option Char
  | '"' => some '"'
  | '\\' => some '\\'
  | '/' => some '/'
  | 'b' => some '\x08'
  | 'f' => some '\x0c'
  | 'n' => some '\n'
  | 'r' => some '\r'
  | 't' => some '\t'
  | _ => none

/-- A unit that must be followed by another one. -/
def isLeadingUnit (unit : Nat) : Bool := 0xD800 ≤ unit && unit ≤ 0xDBFF

/-- A unit that must follow another one. -/
def isTrailingUnit (unit : Nat) : Bool := 0xDC00 ≤ unit && unit ≤ 0xDFFF

/-- The character of a pair of units. -/
def pairedChar (leading trailing : Nat) : Char :=
  Char.ofNat ((leading - 0xD800) * 0x400 + (trailing - 0xDC00) + 0x10000)

/-- What the escape after a leading unit makes of it: the character of the pair with the input
after the pair, or the fault of the unit that stands alone. -/
def takeTrailing (leading : Nat) (cs : List Char) (offset : Nat) :
    Except Fault (Char × List Char) :=
  match cs with
  | '\\' :: 'u' :: rest =>
    match takeUnit rest (offset + 2) with
    | .ok (unit, rest) =>
      if isTrailingUnit unit then .ok (pairedChar leading unit, rest)
      else .error ⟨.loneSurrogate, offset + 6⟩
    | .error fault => .error fault
  | ['\\'] => .error ⟨.endInText, offset + 1⟩
  | '\\' :: _ => .error ⟨.unpairedSurrogate, offset + 2⟩
  | [] => .error ⟨.endInText, offset⟩
  | _ => .error ⟨.unpairedSurrogate, offset + 1⟩

/-- The second half of a surrogate pair takes up some of the text. -/
theorem take_trailing_length {leading : Nat} {cs : List Char} {offset : Nat}
    {result : Char × List Char} (h : takeTrailing leading cs offset = .ok result) :
    result.2.length < cs.length := by
  unfold takeTrailing at h
  split at h
  · split at h
    · rename_i hunit
      split at h
      · have hlt := take_unit_length hunit
        rw [← Except.ok.inj h]
        simp only [List.length_cons]
        simp only at hlt
        omega
      · cases h
    · cases h
  all_goals cases h

/-- Add a character to a text, unless a fault has been met in it. -/
def push (text : Except Fault (List Char)) (c : Char) : Except Fault (List Char) :=
  text.map (c :: ·)

/-- Note a fault, unless one has been met before. -/
def blame (text : Except Fault (List Char)) (fault : Fault) : Except Fault (List Char) :=
  match text with
  | .ok _ => .error fault
  | .error earlier => .error earlier

/-- The fault of a text that is cut short: an earlier one wins for who wants the text. -/
def firstFault (text : Except Fault (List Char)) (fault : Fault) : Fault :=
  match text with
  | .ok _ => fault
  | .error earlier => earlier

/-- Take a text off the front, after its opening quote. The characters so far stand in `text`, the
last one first. -/
def takeText {bound : Nat} (cs : List Char) (offset : Nat) (text : Except Fault (List Char))
    (hbound : cs.length ≤ bound) : Taken String bound :=
  match cs with
  | [] => .broken (firstFault text ⟨.endInText, offset⟩) ⟨.endInText, offset⟩
  | c :: rest =>
    if c = '"' then
      .complete (text.map fun chars => String.ofList chars.reverse) ⟨rest, offset + 1, hbound⟩
    else if c ≠ '\\' then
      if c.toNat < 0x20 then
        .broken (firstFault text ⟨.controlCharacter, offset + 1⟩) ⟨.controlCharacter, offset⟩
      else takeText rest (offset + c.utf8Size) (push text c) (Nat.le_of_lt hbound)
    else
      match rest with
      | [] => .broken (firstFault text ⟨.endInText, offset + 1⟩) ⟨.endInText, offset + 1⟩
      | escape :: rest =>
        have hrest : rest.length < bound := by
          simp only [List.length_cons] at hbound
          omega
        if escape = 'u' then
          match hunit : takeUnit rest (offset + 2) with
          | .error fault => .broken (firstFault text fault) fault
          | .ok (unit, after) =>
            have hafter : after.length < rest.length := take_unit_length hunit
            if isTrailingUnit unit then
              takeText after (offset + 6) (blame text ⟨.loneSurrogate, offset + 6⟩) (by omega)
            else if isLeadingUnit unit then
              match hpair : takeTrailing unit after (offset + 6) with
              | .ok (c, final) =>
                have hfinal : final.length < after.length := take_trailing_length hpair
                takeText final (offset + 12) (push text c) (by omega)
              | .error fault => takeText after (offset + 6) (blame text fault) (by omega)
            else takeText after (offset + 6) (push text (Char.ofNat unit)) (by omega)
        else
          match shortEscape? escape with
          | some short => takeText rest (offset + 2) (push text short) (Nat.le_of_lt hrest)
          | none =>
            .broken (firstFault text ⟨.invalidEscape, offset + 2⟩) ⟨.invalidEscape, offset + 2⟩
termination_by cs.length
decreasing_by all_goals simp only [List.length_cons]; omega

end TileCourse.Json
