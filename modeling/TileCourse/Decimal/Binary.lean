/-!
# Binary floating-point values

The two interchange formats that numbers pass through: double precision, in which a decimal is
read, and single precision, in which it is kept. A value is its bit pattern, and every operation
is stated by exact arithmetic on natural numbers followed by one rounding to the nearest value,
ties going to the even one.
-/

namespace TileCourse.Decimal

/-- A binary format: how many bits a significand has, and between which powers of two its last
bit lies. -/
structure Format where
  /-- The number of bits of a significand. -/
  precision : Nat
  /-- The weight of the last bit of the smallest values, as a power of two. -/
  least : Int
  /-- The weight of the last bit of the largest values, as a power of two. -/
  greatest : Int

/-- Single precision. -/
def Format.single : Format := ⟨24, -149, 104⟩

/-- Double precision. -/
def Format.double : Format := ⟨53, -1074, 971⟩

namespace Format

/-- The distance between the patterns of a value and of its double. -/
def binade (format : Format) : Nat := 1 <<< (format.precision - 1)

/-- The pattern of infinity. -/
def infinity (format : Format) : Nat :=
  (format.greatest - format.least + 2).toNat * format.binade

/-- The pattern of `significand * 2 ^ exponent`, for a significand that fits the format. -/
def pattern (format : Format) (significand : Nat) (exponent : Int) : Nat :=
  (exponent - format.least).toNat * format.binade + significand

/-- The significand and exponent of a finite pattern. -/
def unpack (format : Format) (pattern : Nat) : Nat × Int :=
  let field := pattern / format.binade
  if field = 0 then (pattern, format.least)
  else (format.binade + pattern % format.binade, format.least + field - 1)

end Format

/-- The quotient of two naturals, rounded to the nearest natural; a tie goes to the even one. -/
def roundQuotient (num den : Nat) : Nat :=
  let q := num / den
  let r := num % den
  if 2 * r > den ∨ (2 * r = den ∧ q % 2 = 1) then q + 1 else q

/-- The quotient `num / (den * 2 ^ exponent)` as a pair of naturals. -/
def shiftedRatio (num den : Nat) (exponent : Int) : Nat × Nat :=
  if exponent < 0 then (num <<< (-exponent).toNat, den) else (num, den <<< exponent.toNat)

/-- The pattern of the value nearest to `num / den`. -/
def roundRatio (format : Format) (num den : Nat) : Nat :=
  if num = 0 then 0
  else
    let guess := (num.log2 : Int) - den.log2 - format.precision
    let low := max format.least guess
    let (n, d) := shiftedRatio num den low
    let exponent := if n / d < 1 <<< format.precision then low else low + 1
    let (n, d) := shiftedRatio num den exponent
    min (format.pattern (roundQuotient n d) exponent) format.infinity

end Decimal

/-- A number in single precision. -/
structure Single where
  /-- The bit pattern: sign, exponent, significand. -/
  bits : UInt32
  deriving DecidableEq, Repr, Inhabited

/-- A number in double precision. -/
structure Double where
  /-- The bit pattern: sign, exponent, significand. -/
  bits : UInt64
  deriving DecidableEq, Repr, Inhabited

open Decimal

namespace Double

/-- The value with a sign and the pattern of a magnitude. -/
def ofPattern (negative : Bool) (pattern : Nat) : Double :=
  ⟨UInt64.ofNat ((if negative then 1 <<< 63 else 0) + pattern)⟩

/-- Whether the sign bit is set. -/
def negative (x : Double) : Bool := 1 <<< 63 ≤ x.bits.toNat

/-- The pattern without the sign bit. -/
def magnitude (x : Double) : Nat := x.bits.toNat % 1 <<< 63

end Double

namespace Single

/-- The value with a sign and the pattern of a magnitude. -/
def ofPattern (negative : Bool) (pattern : Nat) : Single :=
  ⟨UInt32.ofNat ((if negative then 1 <<< 31 else 0) + pattern)⟩

/-- Whether the sign bit is set. -/
def negative (x : Single) : Bool := 1 <<< 31 ≤ x.bits.toNat

/-- The pattern without the sign bit. -/
def magnitude (x : Single) : Nat := x.bits.toNat % 1 <<< 31

/-- A value that is neither infinite nor undefined. -/
def isFinite (x : Single) : Bool := x.magnitude < Format.single.infinity

/-- The value nearest to an integer. -/
def ofInt (n : Int) : Single :=
  ofPattern (n < 0) (roundRatio .single n.natAbs 1)

/-- The value nearest to a number in double precision. -/
def ofDouble (x : Double) : Single :=
  if x.magnitude < Format.double.infinity then
    let (significand, exponent) := Format.double.unpack x.magnitude
    let (den, num) := shiftedRatio 1 significand exponent
    ofPattern x.negative (roundRatio .single num den)
  else ofPattern x.negative Format.single.infinity

/-- Zero, with a clear sign bit. -/
def zero : Single := ⟨0⟩

/-- One. -/
def one : Single := ⟨0x3F800000⟩

/-- The nearest value between zero and one. A zero keeps its sign, and an undefined value stays
undefined. -/
def clampToUnit (x : Single) : Single :=
  if x.magnitude = 0 ∨ Format.single.infinity < x.magnitude then x
  else if x.negative then zero
  else if one.magnitude < x.magnitude then one
  else x

end Single

end TileCourse
