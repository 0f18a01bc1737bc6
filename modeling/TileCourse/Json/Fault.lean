/-!
# Faults in JSON text

What can stop the reading of a JSON text, and where. A fault is told apart from a value of the
wrong shape: it lies in the text itself, whatever was expected there.
-/

namespace TileCourse.Json

/-- The cause of a fault. -/
inductive Cause where
  | endInValue
  | endInArray
  | endInObject
  | endInText
  | expectedColon
  | expectedItemEnd
  | expectedMemberEnd
  | expectedLiteral
  | expectedValue
  | keyNotText
  | trailingComma
  | trailingCharacters
  | invalidNumber
  | numberOutOfRange
  | invalidEscape
  | loneSurrogate
  | unpairedSurrogate
  | controlCharacter
  | tooDeep
  deriving DecidableEq, Repr

namespace Cause

/-- The wording of a cause. -/
def message : Cause → String
  | endInValue => "EOF while parsing a value"
  | endInArray => "EOF while parsing a list"
  | endInObject => "EOF while parsing an object"
  | endInText => "EOF while parsing a string"
  | expectedColon => "expected `:`"
  | expectedItemEnd => "expected `,` or `]`"
  | expectedMemberEnd => "expected `,` or `\x7d`"
  | expectedLiteral => "expected ident"
  | expectedValue => "expected value"
  | keyNotText => "key must be a string"
  | trailingComma => "trailing comma"
  | trailingCharacters => "trailing characters"
  | invalidNumber => "invalid number"
  | numberOutOfRange => "number out of range"
  | invalidEscape => "invalid escape"
  | loneSurrogate => "lone leading surrogate in hex escape"
  | unpairedSurrogate => "unexpected end of hex escape"
  | controlCharacter => "control character (\\u0000-\\u001F) found while parsing a string"
  | tooDeep => "recursion limit exceeded"

/-- The text ended too early. -/
def isEnd : Cause → Bool
  | endInValue | endInArray | endInObject | endInText => true
  | _ => false

end Cause

/-- A fault: its cause, and the offset of the byte after the last one that was looked at. -/
structure Fault where
  /-- What is wrong. -/
  cause : Cause
  /-- The offset just after the last byte that was looked at. -/
  offset : Nat
  deriving DecidableEq, Repr

end TileCourse.Json
