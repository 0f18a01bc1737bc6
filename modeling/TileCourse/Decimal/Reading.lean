import TileCourse.Decimal.Binary

/-!
# Reading decimals

The rule by which a run of decimal digits becomes a number in double precision. The digits are
gathered in a 64-bit significand; once it is full, further digits before the point only raise the
exponent and further digits after it are dropped. The significand is then scaled by one power of
ten, or by several when the exponent lies below the range of a single one. Each operation rounds,
so the result is that of the operations and not always the value nearest to the text.
-/

namespace TileCourse.Decimal

/-- A significand of at most 64 bits with the power of ten it is scaled by. -/
structure Gathered where
  /-- The digits gathered so far. -/
  significand : Nat
  /-- The power of ten. -/
  exponent : Int
  /-- Whether every digit so far is in the significand. -/
  exact : Bool
  deriving DecidableEq, Repr

namespace Gathered

/-- Nothing gathered yet. -/
def start : Gathered := ⟨0, 0, true⟩

/-- Whether one more digit keeps the significand within 64 bits. -/
def fits (g : Gathered) (digit : Nat) : Bool := g.significand * 10 + digit < 1 <<< 64

/-- Take up a digit before the point. -/
def before (g : Gathered) (digit : Nat) : Gathered :=
  if g.exact && g.fits digit then { g with significand := g.significand * 10 + digit }
  else { g with exponent := g.exponent + 1, exact := false }

/-- Take up the digits after the point, up to the first that does not fit. -/
def after (g : Gathered) : List Nat → Gathered
  | [] => g
  | digit :: rest =>
    if g.fits digit then
      after { g with significand := g.significand * 10 + digit, exponent := g.exponent - 1 } rest
    else g

end Gathered

/-- The value of a finite pattern as a quotient of naturals. -/
def patternRatio (pattern : Nat) : Nat × Nat :=
  let (significand, exponent) := Format.double.unpack pattern
  shiftedRatio significand 1 (-exponent)

/-- The pattern of a power of ten. -/
def powerOfTen (n : Nat) : Nat := roundRatio .double (Nat.pow 10 n) 1

/-- The rounded product of a value and a power of ten. -/
def timesPower (pattern n : Nat) : Nat :=
  let (a, b) := patternRatio pattern
  let (c, d) := patternRatio (powerOfTen n)
  roundRatio .double (a * c) (b * d)

/-- The rounded quotient of a value and a power of ten. -/
def overPower (pattern n : Nat) : Nat :=
  let (a, b) := patternRatio pattern
  let (c, d) := patternRatio (powerOfTen n)
  roundRatio .double (a * d) (b * c)

/-- The greatest power of ten in double precision. -/
def greatestPower : Nat := 308

/-- Divide by powers of ten, the greatest one as often as it fits, until `n` of them are used up
or nothing is left. -/
def divideDown (pattern n : Nat) : Nat :=
  if n ≤ greatestPower then overPower pattern n
  else if pattern = 0 then 0
  else divideDown (overPower pattern greatestPower) (n - greatestPower)
termination_by n
decreasing_by simp [greatestPower] at *; omega

/-- The pattern of a gathered number, unless it lies beyond the finite ones. -/
def Gathered.pattern? (g : Gathered) : Option Nat :=
  let pattern := roundRatio .double g.significand 1
  if g.exponent < 0 then some (divideDown pattern (-g.exponent).toNat)
  else if greatestPower < g.exponent.toNat then
    if pattern = 0 then some 0 else none
  else
    let product := timesPower pattern g.exponent.toNat
    if product < Format.double.infinity then some product else none

end TileCourse.Decimal
