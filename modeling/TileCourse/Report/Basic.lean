import TileCourse.Text.Blank
import TileCourse.Text.Columns
import TileCourse.Text.Span

/-!
# Reports on source texts

A report shows a message, the line of a source text that it is about, a mark under the part of the
line that is meant, and some advice. The part is given by the indexes of its characters. A part
that goes on over several lines is marked in the margin of its first and last line; if a part does
not lie in the text, the report has less to show.
-/

namespace TileCourse

/-- What follows the marks of a report. -/
inductive Advice where
  | help (text : String)
  | note (text : String)
  deriving DecidableEq, Repr

/-- What a report says. -/
structure Report where
  message : String
  /-- The part that is meant, in characters. -/
  part : Span
  /-- What is said about the part. -/
  label : String
  advice : Option Advice
  deriving DecidableEq, Repr

namespace Report

/-! ### Lines -/

/-- A character that ends a line. -/
def endsLine (c : Char) : Bool :=
  let n := c.toNat
  (10 ≤ n && n ≤ 13) || n == 0x85 || n == 0x2028 || n == 0x2029

/-- Cut a text after each end of a line. A carriage return and the line feed after it are one
end. -/
def sourceLines : List Char → List (List Char)
  | [] => []
  | '\r' :: '\n' :: cs => ['\r', '\n'] :: sourceLines cs
  | c :: cs =>
    if endsLine c then [c] :: sourceLines cs
    else
      match sourceLines cs with
      | [] => [[c]]
      | line :: rest => (c :: line) :: rest

/-- A line of a source text. -/
structure Row where
  /-- The number of the line; the first is one. -/
  number : Nat
  /-- The index of its first character. -/
  start : Nat
  /-- The line with its end. -/
  text : List Char
  deriving DecidableEq, Repr

/-- The index just after the last character of a line. -/
def Row.stop (row : Row) : Nat := row.start + row.text.length

/-- The rows of lines, the first of which has a number and an index. -/
def rowsFrom : List (List Char) → (number start : Nat) → List Row
  | [], _, _ => []
  | text :: rest, number, start =>
    ⟨number, start, text⟩ :: rowsFrom rest (number + 1) (start + text.length)

/-- The rows of a text. -/
def rows (source : List Char) : List Row := rowsFrom (sourceLines source) 1 0

/-- The row of the character with an index; the end of the text belongs to the last row. -/
def rowOf? (index : Nat) : List Row → Option Row
  | [] => none
  | [row] => if index ≤ row.stop then some row else none
  | row :: rest => if index < row.stop then some row else rowOf? index rest

/-! ### Cells -/

/-- The number of cells of a character in a column. A tab goes on to the next multiple of four. -/
def cells (c : Char) (column : Nat) : Nat :=
  if c = '\t' then 4 - column % 4
  else if Text.isBlank c then 1
  else Text.columns c

/-- The cells of a line, from a column on. Every blank is shown as spaces. -/
def shownFrom : List Char → (column : Nat) → List Char
  | [], _ => []
  | c :: cs, column =>
    (if Text.isBlank c then List.replicate (cells c column) ' ' else [c]) ++
      shownFrom cs (column + 1)

/-- The marks under the columns of a line, from a column on: each mark is repeated as often as the
character above has cells, the second time by its tail. Columns after the line have one cell. -/
def marksFrom (mark : Nat → Char × Char) : List Char → (column count : Nat) → List Char
  | _, _, 0 => []
  | [], column, count + 1 => (mark column).1 :: marksFrom mark [] (column + 1) count
  | c :: cs, column, count + 1 =>
    (match cells c column with
      | 0 => []
      | n + 1 => (mark column).1 :: List.replicate n (mark column).2) ++
      marksFrom mark cs (column + 1) count

/-- The columns between the end of a mark and the text that is said about it. -/
def gap : Nat := 2

/-! ### Margins -/

/-- The left margin of a line without a number. -/
def margin (width : Nat) : List Char := List.replicate (width + 2) ' ' ++ ['│', ' ']

/-- The left margin of a line with a number. -/
def numbered (width number : Nat) : List Char :=
  let digits := Nat.toDigits 10 number
  ' ' :: List.replicate (width - digits.length) ' ' ++ digits ++ [' ', '│', ' ']

/-- The left margin in the place of lines that are left out. -/
def skipped (width : Nat) : List Char := List.replicate (width + 2) ' ' ++ ['┆', ' ']

/-- A line of a report. -/
def line (text : List Char) : List Char := text ++ ['\n']

/-! ### Marks -/

/-- The line of a row and the marks under a part that lies in it. -/
def markedRow (width : Nat) (row : Row) (part : Span) (label : List Char) : List Char :=
  let text := Text.trimEnd row.text
  let middle := (part.start + part.stop) / 2 - row.start
  let count := part.stop - row.start + gap
  let covered (column : Nat) : Bool :=
    part.start ≤ row.start + column && row.start + column < part.stop
  let under (column : Nat) : Char × Char :=
    if column = middle then if covered column then ('┬', '─') else ('│', ' ')
    else if covered column then ('─', '─')
    else (' ', ' ')
  let pointer (column : Nat) : Char × Char :=
    if column = middle then ('╰', '─')
    else if middle < column then ('─', '─')
    else (' ', ' ')
  line (numbered width row.number ++ shownFrom text 0) ++
    line (margin width ++ marksFrom under text 0 count) ++
    line (margin width ++ marksFrom pointer text 0 count ++ [' '] ++ label)

/-- The last row of a part that goes on over several lines, with what is said about it. -/
def lastRow (width : Nat) (row : Row) (label : List Char) : List Char :=
  let text := Text.trimEnd row.text
  let count := row.text.length + gap
  line (numbered width row.number ++ ['├', '─', '▶', ' '] ++ shownFrom text 0) ++
    line (margin width ++ ['│', ' ', ' ', ' '] ++ marksFrom (fun _ => (' ', ' ')) text 0 count) ++
    line (margin width ++ ['╰', '─', '─', '─'] ++ marksFrom (fun _ => ('─', '─')) text 0 count ++
      [' '] ++ label)

/-- The rows of a part that goes on over several lines. The rows between the first and the last
are left out, and so is the last if the part ends after the text. -/
def longPart (width : Nat) (first last : Row) (part : Span) (label : List Char) : List Char :=
  let ends := part.stop ≤ last.stop
  let leftOut := line (skipped width ++ ['┆', ' ', ' ', ' '])
  line (numbered width first.number ++ ['╭', '─', '▶', ' '] ++
      shownFrom (Text.trimEnd first.text) 0) ++
    (if first.number + 1 < last.number ∨ !ends then leftOut else []) ++
    (if ends then lastRow width last label else [])

/-- The left margin of advice. Beside a part that goes on over several lines it is wider, and
shows the part once more if the part starts where the second line does. -/
def adviceMargin (width : Nat) (head : Option Row) (first last : Row) (part : Span) :
    List Char :=
  if first.number = last.number then margin width
  else if head.any fun row => row.stop == part.start then margin width ++ ['│', ' ', ' ', ' ']
  else margin width ++ [' ', ' ', ' ', ' ']

/-- The lines of advice. -/
def adviceLines (margin : List Char) : Option Advice → List Char
  | none => []
  | some advice =>
    let text :=
      match advice with
      | .help text => "Help: " ++ text
      | .note text => "Note: " ++ text
    line margin ++ line (margin ++ text.toList)

/-- The part of a report that shows the source, given the rows in which the part starts and
ends. -/
def body (report : Report) (name : List Char) (head : Option Row) (first last : Row) :
    List Char :=
  let width := (Nat.toDigits 10 last.number).length
  let label := report.label.toList
  let place :=
    name ++ [':'] ++ Nat.toDigits 10 first.number ++ [':'] ++
      Nat.toDigits 10 (report.part.start - first.start + 1)
  let marks :=
    if first.number ≠ last.number then longPart width first last report.part label
    else if report.part.stop ≤ first.stop then markedRow width first report.part label
    else line (margin width)
  line (List.replicate (width + 2) ' ' ++ ['╭', '─', '['] ++ place ++ [']']) ++
    line (List.replicate (width + 2) ' ' ++ ['│']) ++
    marks ++
    adviceLines (adviceMargin width head first last report.part) report.advice ++
    line (List.replicate (width + 2) '─' ++ ['╯'])

/-- The text of a report on a source text with a name. A part that does not start or end in the
text is not shown. -/
def render (report : Report) (name : String) (source : List Char) : String :=
  let all := rows source
  let final := if report.part.isEmpty then report.part.start else report.part.stop - 1
  let shown :=
    match rowOf? report.part.start all, rowOf? final all with
    | some first, some last => report.body name.toList all.head? first last
    | _, _ => []
  String.ofList (line ("Error: ".toList ++ report.message.toList) ++ shown)

end Report

end TileCourse
