import TileCourse.Text.Span

/-!
# The lines of a program text

A program is written one instruction a line. What follows a `#` is a comment, and lines without
anything else do not count. `Line.split` gives the lines that do, each with its words and with the
depth of its indentation: a tab is one level, and so are two or four spaces, whichever the first
line indented by spaces decides.
-/

namespace TileCourse

/-- A word of a line. -/
structure Word where
  /-- The characters of the word. -/
  text : String
  /-- Where the word stands. -/
  span : Span
  deriving DecidableEq, Repr

/-- A line that counts. -/
structure Line where
  /-- The depth of its indentation. -/
  indent : Nat
  /-- Where its text stands, without indentation and comment. -/
  span : Span
  /-- The words of its text. -/
  words : List Word
  deriving DecidableEq, Repr

/-- Why the text of a program is refused. -/
inductive ParseError where
  | invalidIndentation (span : Span)
  | missingArgument (instruction : String) (span : Span)
  | unexpectedToken (token : String) (span : Span)
  | invalidRepeatCount (value : String) (span : Span)
  | invalidDirection (value : String) (span : Span)
  | unknownCondition (name : String) (span : Span)
  | unexpectedElse (span : Span)
  | nestingTooDeep (depth : Nat) (span : Span)
  deriving DecidableEq, Repr

/-- The greatest depth of indentation. -/
def maxNesting : Nat := 64

namespace ParseError

/-- Where the error lies. -/
def span : ParseError → Span
  | invalidIndentation span => span
  | missingArgument _ span => span
  | unexpectedToken _ span => span
  | invalidRepeatCount _ span => span
  | invalidDirection _ span => span
  | unknownCondition _ span => span
  | unexpectedElse span => span
  | nestingTooDeep _ span => span

/-- The wording of the error. -/
def message : ParseError → String
  | invalidIndentation _ => "invalid indentation"
  | missingArgument instruction _ => s!"`{instruction}` is missing its argument"
  | unexpectedToken token _ => s!"unexpected `{token}`"
  | invalidRepeatCount value _ => s!"`{value}` is not a valid repeat count"
  | invalidDirection value _ => s!"`{value}` is not a turn direction"
  | unknownCondition name _ => s!"unknown condition `{name}`"
  | unexpectedElse _ => "`else` without a matching `if`"
  | nestingTooDeep depth _ =>
    s!"blocks are nested {depth} levels deep, at most {maxNesting} are allowed"

end ParseError

namespace Line

/-- The word that ends at an offset, given its characters in reverse. -/
def finishWord (reversed : List Char) (stop : Nat) : Word :=
  ⟨String.ofList reversed.reverse, ⟨stop - Text.byteSize reversed, stop⟩⟩

/-- The words of a text that starts at an offset, given the characters of a word that has begun
before it, in reverse. -/
def wordsFrom : List Char → (offset : Nat) → (begun : List Char) → List Word
  | [], offset, begun => if begun.isEmpty then [] else [finishWord begun offset]
  | c :: cs, offset, begun =>
    if Text.isBlank c then
      let rest := wordsFrom cs (offset + c.utf8Size) []
      if begun.isEmpty then rest else finishWord begun offset :: rest
    else wordsFrom cs (offset + c.utf8Size) (c :: begun)

/-- A character of an indentation. -/
def isIndent (c : Char) : Bool := c == ' ' || c == '\t'

/-- The text of a line without its comment and the blanks before it. -/
def content (raw : List Char) : List Char :=
  Text.trimEnd (raw.takeWhile (· != '#'))

/-- The number of spaces that make up a level, given how many indent the first line. -/
def unitOf (spaces : Nat) : Nat := if 4 ≤ spaces then 4 else 2

/-- The line with the given content, which starts at an offset, and the unit of indentation from
then on. A content without text gives no line. -/
def ofContent (content : List Char) (offset : Nat) (unit : Option Nat) :
    Except ParseError (Option Line × Option Nat) :=
  let leading := content.takeWhile isIndent
  let body := content.dropWhile isIndent
  if body.isEmpty then .ok (none, unit)
  else
    let leadingSpan : Span := ⟨offset, offset + max leading.length 1⟩
    let tabs := (leading.takeWhile (· == '\t')).length
    let spaces := leading.length - tabs
    let level : Except ParseError (Nat × Option Nat) :=
      if (leading.drop tabs).contains '\t' then .error (.invalidIndentation leadingSpan)
      else if spaces = 0 then .ok (tabs, unit)
      else
        let size := unit.getD (unitOf spaces)
        if spaces % size ≠ 0 then .error (.invalidIndentation leadingSpan)
        else .ok (tabs + spaces / size, some size)
    match level with
    | .error error => .error error
    | .ok (indent, unit) =>
      if maxNesting < indent then .error (.nestingTooDeep indent leadingSpan)
      else
        let start := offset + leading.length
        .ok (some ⟨indent, ⟨start, start + Text.byteSize body⟩, wordsFrom body start []⟩, unit)

/-- The lines that count among raw lines, the first of which starts at an offset. -/
def ofRaw : List (List Char) → (offset : Nat) → (unit : Option Nat) →
    Except ParseError (List Line)
  | [], _, _ => .ok []
  | raw :: rest, offset, unit =>
    match ofContent (content raw) offset unit with
    | .error error => .error error
    | .ok (line, unit) =>
      match ofRaw rest (offset + Text.byteSize raw) unit with
      | .error error => .error error
      | .ok others => .ok (line.toList ++ others)

/-- The lines of a program text that count. -/
def split (source : List Char) : Except ParseError (List Line) :=
  ofRaw (Text.lines source) 0 none

end Line

end TileCourse
