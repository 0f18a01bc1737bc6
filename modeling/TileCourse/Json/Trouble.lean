import TileCourse.Decimal.Shortest
import TileCourse.Json.Node
import TileCourse.Text.Quoted

/-!
# Why a tree is not a value of a type

A tree that is read well may still have the wrong shape for what it should describe. A misfit says
what is wrong with the shape. Together with the faults of the text itself it makes up the troubles
that decoding may meet.
-/

namespace TileCourse.Json

/-- What was found in the place of something else. -/
inductive Found where
  | scalar (value : Scalar)
  | sequence
  | map
  deriving DecidableEq, Repr

/-- The number of a message. -/
def describeNumber : JsonNumber → String
  | .integer n => s!"integer `{n}`"
  | .double x => "floating point `" ++ String.ofList x.render ++ "`"
  | .single x => "floating point `" ++ String.ofList x.render ++ "`"

/-- The wording of what was found. -/
def Found.describe : Found → String
  | .scalar .null => "null"
  | .scalar (.bool value) => if value then "boolean `true`" else "boolean `false`"
  | .scalar (.number value) => describeNumber value
  | .scalar (.text value) => "string " ++ Text.quoted value
  | .sequence => "sequence"
  | .map => "map"

/-- What is wrong with a shape. -/
inductive Misfit where
  /-- A value of another kind was wanted. -/
  | wrongType (found : Found) (wanted : String)
  /-- An integer lies outside the range that was wanted. -/
  | outOfRange (found : Int) (wanted : String)
  /-- An object that names a variant does not have exactly one member. -/
  | notSingle
  /-- A record lacks a field. -/
  | missingField (name : String)
  /-- A record gives a field twice. -/
  | duplicateField (name : String)
  /-- A text names none of the variants of a choice. -/
  | unknownVariant (name : String) (variants : List String)
  /-- An array has too few or too many items. -/
  | wrongLength (count : Nat) (wanted : String)
  /-- The parts fit, but what they describe is refused. -/
  | refused (message : String)
  deriving DecidableEq, Repr

/-- A name between back quotes. -/
def backquoted (name : String) : String := "`" ++ name ++ "`"

/-- The wording of the variants of a choice. -/
def describeVariants : List String → String
  | [one] => backquoted one
  | [one, two] => backquoted one ++ " or " ++ backquoted two
  | variants => "one of " ++ ", ".intercalate (variants.map backquoted)

/-- The wording of a misfit. -/
def Misfit.message : Misfit → String
  | .wrongType found wanted => s!"invalid type: {found.describe}, expected {wanted}"
  | .outOfRange found wanted => s!"invalid value: integer `{found}`, expected {wanted}"
  | .notSingle => "invalid value: map, expected map with a single key"
  | .missingField name => s!"missing field `{name}`"
  | .duplicateField name => s!"duplicate field `{name}`"
  | .unknownVariant name variants =>
    s!"unknown variant `{name}`, expected {describeVariants variants}"
  | .wrongLength count wanted => s!"invalid length {count}, expected {wanted}"
  | .refused message => message

/-- Why decoding stopped. A misfit is first met without a place; it gets the place where the
reader of the enclosing array or object stands when it gives up. -/
inductive Trouble where
  | fault (fault : Fault)
  | misfit (misfit : Misfit) (offset : Option Nat)
  deriving DecidableEq, Repr

/-- The three sorts of trouble. -/
inductive Category where
  | syntactic
  | ended
  | data
  deriving DecidableEq, Repr

namespace Trouble

/-- The sort of a trouble. -/
def category : Trouble → Category
  | .fault found => if found.cause.isEnd then .ended else .syntactic
  | .misfit _ _ => .data

/-- The wording of a trouble. -/
def message : Trouble → String
  | .fault found => found.cause.message
  | .misfit found _ => found.message

/-- The offset of a trouble, if it has one. -/
def offset? : Trouble → Option Nat
  | .fault found => some found.offset
  | .misfit _ offset => offset

/-- Give a trouble a place unless it has one. -/
def settle (offset : Nat) : Trouble → Trouble
  | .misfit found none => .misfit found (some offset)
  | trouble => trouble

end Trouble

/-- The line and column of an offset: the line counts from one, and the column is the number of
bytes since the last line feed. -/
def lineColumn : List Char → (offset line column : Nat) → Nat × Nat
  | [], offset, line, column => (line, column + offset)
  | c :: cs, offset, line, column =>
    if offset = 0 then (line, column)
    else if c = '\n' then lineColumn cs (offset - 1) (line + 1) 0
    else if offset < c.utf8Size then (line, column + offset)
    else lineColumn cs (offset - c.utf8Size) line (column + c.utf8Size)

/-- The place of a trouble in a text, as line and column. -/
def Trouble.place? (trouble : Trouble) (source : List Char) : Option (Nat × Nat) :=
  trouble.offset?.map fun offset => lineColumn source offset 1 0

/-- The wording of a trouble together with its place. -/
def Trouble.fullMessage (trouble : Trouble) (source : List Char) : String :=
  match trouble.place? source with
  | some (line, column) => s!"{trouble.message} at line {line} column {column}"
  | none => trouble.message

end TileCourse.Json
