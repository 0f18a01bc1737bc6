import TileCourse.Text.Blank

/-!
# Places in a source text

A span is a half-open range of byte offsets into a source text. `Span.atLineColumn` finds the span
that a line and a column of a report stand for.
-/

namespace TileCourse

/-- A half-open range of byte offsets. -/
structure Span where
  /-- The offset of the first byte. -/
  start : Nat
  /-- The offset just after the last byte. -/
  stop : Nat
  deriving DecidableEq, Repr

namespace Span

/-- The number of bytes covered. -/
def size (span : Span) : Nat := span.stop - span.start

/-- A span that covers nothing. -/
def isEmpty (span : Span) : Bool := span.stop ≤ span.start

/-- The offset of the character with the given index, or the size of the text when it has no
such character. -/
def charOffset : List Char → Nat → Nat
  | [], _ => 0
  | _ :: _, 0 => 0
  | c :: cs, n + 1 => c.utf8Size + charOffset cs n

/-- The offset of a line and column in a list of lines that start at `offset`, if the line
exists. Both count from one, and a column past the line's end is its end. -/
def offsetIn? : List (List Char) → (offset line column : Nat) → Option Nat
  | [], _, _, _ => none
  | text :: _, offset, 1, column => some (offset + charOffset text (column - 1))
  | text :: rest, offset, line, column =>
    offsetIn? rest (offset + Text.byteSize text) (line - 1) column

/-- The span of one byte at a line and column, both counted from one. A place after the last
line stands for the last byte. -/
def atLineColumn (source : List Char) (line column : Nat) : Span :=
  let size := Text.byteSize source
  match (if line = 0 then none else offsetIn? (Text.lines source) 0 line column) with
  | some offset => ⟨min offset size, min (offset + 1) size⟩
  | none => ⟨size - 1, size⟩

end Span

end TileCourse
