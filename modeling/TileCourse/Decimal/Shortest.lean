import TileCourse.Decimal.Binary

/-!
# Shortest decimals

A binary value is written with the fewest decimal digits that read back as the same value, and
among those the digits nearest to it. The search runs over the grids of multiples of a power of
ten, from coarse to fine: the first grid with a point among the reals that round to the value
decides. How the digits are laid out is a record of its own.
-/

namespace TileCourse.Decimal

/-- The decimal `digits * 10 ^ exponent`. -/
structure Scaled where
  /-- The digits, as a number. -/
  digits : Nat
  /-- The power of ten. -/
  exponent : Int
  deriving DecidableEq, Repr

/-- The ends of the reals that round to `significand * 2 ^ exponent`, in quarters of the last
bit's weight. The gap below a power of two is half as wide. -/
def roundingEnds (format : Format) (significand : Nat) (exponent : Int) : Nat × Nat :=
  let below := if significand = format.binade ∧ format.least < exponent then 1 else 2
  (4 * significand - below, 4 * significand + 2)

/-- The weight `10 ^ ten / 2 ^ two` as a quotient of naturals. -/
def weight (ten two : Int) : Nat × Nat :=
  (Nat.pow 10 ten.toNat <<< (-two).toNat, Nat.pow 10 (-ten).toNat <<< two.toNat)

/-- The point nearest to a value on the grid of multiples of `10 ^ ten`, if a grid point rounds to
the value. -/
def gridPoint? (format : Format) (significand : Nat) (exponent ten : Int) : Option Nat :=
  let (low, high) := roundingEnds format significand exponent
  let (num, den) := weight ten (exponent - 2)
  let value := 4 * significand * den
  let inside (c : Nat) : Bool :=
    if significand % 2 = 0 then low * den ≤ c * num && c * num ≤ high * den
    else low * den < c * num && c * num < high * den
  let c := value / num
  let below := value - c * num
  let above := (c + 1) * num - value
  if inside c && inside (c + 1) then
    some (if below < above ∨ (below = above ∧ c % 2 = 0) then c else c + 1)
  else if inside c then some c
  else if inside (c + 1) then some (c + 1)
  else none

/-- Try grids from `10 ^ ten` on towards finer ones. -/
def firstGrid (format : Format) (significand : Nat) (exponent : Int) : Nat → Int → Scaled
  | 0, ten => ⟨(gridPoint? format significand exponent ten).getD 0, ten⟩
  | tries + 1, ten =>
    match gridPoint? format significand exponent ten with
    | some c => ⟨c, ten⟩
    | none => firstGrid format significand exponent tries (ten - 1)

/-- The shortest decimal of a finite pattern other than zero. The first grid lies above the value,
and no more than `precision` grids are ever needed. -/
def shortest (format : Format) (pattern : Nat) : Scaled :=
  let (significand, exponent) := format.unpack pattern
  let size := exponent + significand.log2 + 1
  firstGrid format significand exponent format.precision (size * 30103 / 100000 + 1)

/-- How far from the point digits may lie before a power of ten is written: the least and the
greatest number of places before the point that are written out. -/
structure Layout where
  /-- The least number of places before the point; a negative one counts zeros after it. -/
  fewest : Int
  /-- The greatest number of places before the point. -/
  most : Int

/-- The text of a decimal. There is always a point or a power of ten in it. -/
def Layout.render (layout : Layout) (x : Scaled) : List Char :=
  let digits := Nat.toDigits 10 x.digits
  let places := digits.length + x.exponent
  if layout.fewest ≤ places ∧ places ≤ layout.most then
    if 0 ≤ x.exponent then digits ++ List.replicate x.exponent.toNat '0' ++ ['.', '0']
    else if 0 < places then digits.take places.toNat ++ ['.'] ++ digits.drop places.toNat
    else ['0', '.'] ++ List.replicate (-places).toNat '0' ++ digits
  else
    let power := places - 1
    let exponent :=
      (if power < 0 then ['e', '-'] else ['e', '+']) ++ Nat.toDigits 10 power.natAbs
    match digits with
    | [d] => d :: exponent
    | d :: rest => [d, '.'] ++ rest ++ exponent
    | [] => exponent

/-- The text of a finite pattern with its sign. -/
def renderPattern (format : Format) (layout : Layout) (negative : Bool) (pattern : Nat) :
    List Char :=
  let body :=
    if pattern = 0 then ['0', '.', '0'] else layout.render (shortest format pattern)
  if negative then '-' :: body else body

end Decimal

/-- Numbers in single precision are written out from a millionth up to ten trillions. -/
def Single.layout : Decimal.Layout := ⟨-5, 13⟩

/-- Numbers in double precision are written out from a hundred-thousandth up to ten
quadrillions. -/
def Double.layout : Decimal.Layout := ⟨-4, 16⟩

/-- The shortest text that reads back as the number. -/
def Single.render (x : Single) : List Char :=
  Decimal.renderPattern .single Single.layout x.negative x.magnitude

/-- The shortest text that reads back as the number. -/
def Double.render (x : Double) : List Char :=
  Decimal.renderPattern .double Double.layout x.negative x.magnitude

end TileCourse
