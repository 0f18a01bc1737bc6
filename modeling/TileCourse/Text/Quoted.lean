import TileCourse.Text.Shown

/-!
# Quoted texts in messages

A message shows a text between double quotes. The quote, the backslash and the common controls
have two-character forms; any other character without a shape of its own is shown by its number,
in hexadecimal between braces.
-/

namespace TileCourse.Text

/-- The hexadecimal digits of a number, lower case and without leading zeros. -/
def hexadecimal (n : Nat) : List Char := Nat.toDigits 16 n

/-- The form of one character inside quotes. -/
def quotedChar (c : Char) : List Char :=
  match c with
  | '\x00' => ['\\', '0']
  | '\t' => ['\\', 't']
  | '\n' => ['\\', 'n']
  | '\r' => ['\\', 'r']
  | '"' => ['\\', '"']
  | '\\' => ['\\', '\\']
  | c => if isShown c then [c] else ['\\', 'u', '\x7b'] ++ hexadecimal c.toNat ++ ['\x7d']

/-- A text between double quotes. -/
def quoted (s : String) : String :=
  String.ofList (['"'] ++ s.toList.flatMap quotedChar ++ ['"'])

end TileCourse.Text
