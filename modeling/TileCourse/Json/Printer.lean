import TileCourse.Decimal.Shortest
import TileCourse.Json.Basic

/-!
# Writing JSON

A value is written in one of two styles: compact, without any space, or spread over lines with an
indentation of two spaces for each array or object. An empty array or object is written without a
gap in either style. Of the characters of a text only the quote, the backslash and the controls
below the space are escaped.
-/

namespace TileCourse.Json

/-- Where a style puts gaps. -/
structure Style where
  /-- The gap before an item, a member or a closing bracket that stands inside `depth` brackets. -/
  gap : (depth : Nat) → List Char
  /-- The gap between the colon and the value of a member. -/
  afterColon : List Char

/-- No gaps at all. -/
def Style.compact : Style := ⟨fun _ => [], []⟩

/-- Each item and member on a line of its own. -/
def Style.spread : Style := ⟨fun depth => '\n' :: List.replicate (2 * depth) ' ', [' ']⟩

/-- The escape of a control character without a short form. -/
def controlEscape (c : Char) : List Char :=
  let digit (n : Nat) : Char := n.digitChar
  ['\\', 'u', '0', '0', digit (c.toNat / 16), digit (c.toNat % 16)]

/-- A character inside the quotes of a text. -/
def escapeChar (c : Char) : List Char :=
  match c with
  | '"' => ['\\', '"']
  | '\\' => ['\\', '\\']
  | '\n' => ['\\', 'n']
  | '\r' => ['\\', 'r']
  | '\t' => ['\\', 't']
  | '\x08' => ['\\', 'b']
  | '\x0c' => ['\\', 'f']
  | c => if c.toNat < 0x20 then controlEscape c else [c]

/-- A text between quotes. -/
def renderText (s : String) : List Char :=
  ['"'] ++ s.toList.flatMap escapeChar ++ ['"']

/-- The digits of an integer with its sign. -/
def renderInt (n : Int) : List Char :=
  if n < 0 then '-' :: Nat.toDigits 10 n.natAbs else Nat.toDigits 10 n.natAbs

/-- A number. A floating-point value without a decimal form is written as `null`. -/
def renderNumber : JsonNumber → List Char
  | .integer n => renderInt n
  | .double x =>
    if x.magnitude < Decimal.Format.double.infinity then x.render else ['n', 'u', 'l', 'l']
  | .single x => if x.isFinite then x.render else ['n', 'u', 'l', 'l']

mutual

/-- The text of a value that stands inside `depth` brackets. -/
def renderAt (style : Style) (depth : Nat) : Json → List Char
  | .null => ['n', 'u', 'l', 'l']
  | .bool true => ['t', 'r', 'u', 'e']
  | .bool false => ['f', 'a', 'l', 's', 'e']
  | .number n => renderNumber n
  | .text s => renderText s
  | .array [] => ['[', ']']
  | .array (item :: rest) =>
    ['['] ++ style.gap (depth + 1) ++ renderAt style (depth + 1) item ++
      renderItems style depth rest
  | .object [] => ['\x7b', '\x7d']
  | .object ((name, value) :: rest) =>
    ['\x7b'] ++ style.gap (depth + 1) ++ renderText name ++ [':'] ++ style.afterColon ++
      renderAt style (depth + 1) value ++ renderMembers style depth rest

/-- The items after the first, and the closing bracket. -/
def renderItems (style : Style) (depth : Nat) : List Json → List Char
  | [] => style.gap depth ++ [']']
  | item :: rest =>
    [','] ++ style.gap (depth + 1) ++ renderAt style (depth + 1) item ++
      renderItems style depth rest

/-- The members after the first, and the closing brace. -/
def renderMembers (style : Style) (depth : Nat) : List (String × Json) → List Char
  | [] => style.gap depth ++ ['\x7d']
  | (name, value) :: rest =>
    [','] ++ style.gap (depth + 1) ++ renderText name ++ [':'] ++ style.afterColon ++
      renderAt style (depth + 1) value ++ renderMembers style depth rest

end

/-- The text of a value. -/
def render (style : Style) (value : Json) : String :=
  String.ofList (renderAt style 0 value)

/-- The text of a value without gaps. -/
def compact (value : Json) : String := render .compact value

/-- The text of a value spread over lines. -/
def pretty (value : Json) : String := render .spread value

end TileCourse.Json
