import TileCourse.Json.Trouble
import TileCourse.Program.Line
import TileCourse.Report.Basic

/-!
# Reports on programs and data

What is reported about the text of a program that cannot be read, and about a text that is not the
JSON of what it should describe. The place of a problem is known as a span of bytes; a report
counts the same numbers in characters, so after characters of several bytes it points further on.
-/

namespace TileCourse

namespace ParseError

/-- What is said about the text that is to blame. -/
def label : ParseError → String
  | invalidIndentation _ => "this indentation is not valid"
  | missingArgument instruction _ => s!"`{instruction}` needs an argument"
  | unexpectedToken _ _ => "nothing else is allowed on this line"
  | invalidRepeatCount value _ => s!"`{value}` is not a whole number"
  | invalidDirection value _ => s!"cannot turn `{value}`"
  | unknownCondition name _ => s!"`{name}` is not a condition"
  | unexpectedElse _ => "this `else` has no `if` above it"
  | nestingTooDeep _ _ => "this line is nested too deeply"

/-- How to mend the text. -/
def advice : ParseError → Advice
  | invalidIndentation _ =>
    .note "Indent each body one level (a tab, or a consistent 2 or 4 spaces)"
  | missingArgument "turn" _ => .help "Write `turn left` or `turn right`"
  | missingArgument "repeat" _ => .help "Write the number of repetitions, e.g. `repeat 3`"
  | missingArgument _ _ => .help "Add the missing argument"
  | unexpectedToken _ _ => .help "Put each instruction on its own line"
  | invalidRepeatCount _ _ => .help "Repeat counts are non-negative integers"
  | invalidDirection _ _ => .help "Write `turn left` or `turn right`"
  | unknownCondition _ _ =>
    .note "Known conditions: tile-ahead-walkable, collectibles-remaining"
  | unexpectedElse _ => .help "Align `else` with its `if`"
  | nestingTooDeep _ _ => .help "Flatten the program, e.g. by combining repeats"

/-- The report on the text of a program. -/
def report (error : ParseError) : Report :=
  ⟨error.message, error.span, error.label, some error.advice⟩

end ParseError

/-- The report on a text that is not the JSON of what it should describe. -/
def Json.Trouble.report (trouble : Json.Trouble) (source : List Char) : Report where
  message := "Invalid JSON"
  part :=
    match trouble.place? source with
    | some (line, column) =>
      if source.isEmpty then ⟨0, 0⟩ else Span.atLineColumn source line column
    | none => ⟨0, 0⟩
  label := trouble.fullMessage source
  advice := none

end TileCourse
