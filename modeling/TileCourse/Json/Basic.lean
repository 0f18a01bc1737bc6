import TileCourse.Decimal.Binary

/-!
# JSON values

A JSON value as it is held in memory, and as it is written. Numbers are integers, or binary
floating-point values of either precision; the members of an object keep their order.
-/

namespace TileCourse

/-- A JSON number. -/
inductive JsonNumber where
  /-- A number without a fraction or an exponent. -/
  | integer (value : Int)
  /-- A number with a fraction or an exponent, or an integer of more than 64 bits. -/
  | double (value : Double)
  /-- A number that is kept in single precision. -/
  | single (value : Single)
  deriving DecidableEq, Repr

/-- A JSON value. -/
inductive Json where
  | null
  | bool (value : Bool)
  | number (value : JsonNumber)
  | text (value : String)
  | array (items : List Json)
  | object (members : List (String × Json))
  deriving Repr, Inhabited

namespace Json

/-- The number with the value of an integer. -/
def int (n : Int) : Json := .number (.integer n)

/-- The number with the value of a natural. -/
def nat (n : Nat) : Json := .number (.integer n)

mutual

/-- The number of arrays and objects around the innermost place of a value. -/
def depth : Json → Nat
  | .array items => itemsDepth items + 1
  | .object members => membersDepth members + 1
  | _ => 0

/-- The greatest depth of the items of an array. -/
def itemsDepth : List Json → Nat
  | [] => 0
  | item :: rest => max item.depth (itemsDepth rest)

/-- The greatest depth of the values of an object. -/
def membersDepth : List (String × Json) → Nat
  | [] => 0
  | (_, value) :: rest => max value.depth (membersDepth rest)

end

end Json

end TileCourse
