/-!
# Numerals of 32 bits

A numeral is a run of decimal digits, with a plus sign before it if one likes. Its characters are
taken from left to right, and the first problem decides why a text is not a numeral.
-/

namespace TileCourse.Text

/-- Why a text is not a numeral. -/
inductive NumeralFault where
  | empty
  | invalidDigit
  | tooLarge
  deriving DecidableEq, Repr

/-- The wording of a fault. -/
def NumeralFault.message : NumeralFault → String
  | .empty => "cannot parse integer from empty string"
  | .invalidDigit => "invalid digit found in string"
  | .tooLarge => "number too large to fit in target type"

/-- The value of digits that follow digits of the given value. -/
def numeralFrom : List Char → Nat → Except NumeralFault Nat
  | [], value => .ok value
  | c :: cs, value =>
    if c.isDigit then
      let next := value * 10 + (c.toNat - '0'.toNat)
      if next < 1 <<< 32 then numeralFrom cs next else .error .tooLarge
    else .error .invalidDigit

/-- The value of a numeral. -/
def numeral (cs : List Char) : Except NumeralFault UInt32 :=
  let digits : Except NumeralFault Nat :=
    match cs with
    | [] => .error .empty
    | ['+'] => .error .invalidDigit
    | '+' :: rest => numeralFrom rest 0
    | _ => numeralFrom cs 0
  digits.map UInt32.ofNat

end TileCourse.Text
