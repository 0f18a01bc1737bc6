import TileCourse.Program.Basic

/-!
# Writing program texts

`Program.render` writes a program one instruction a line, with four spaces for each level of
indentation. A branch whose second list is empty is written without `else`.
-/

namespace TileCourse.Program

/-- A line at a level of indentation. -/
def renderLine (depth : Nat) (text : List Char) : List Char :=
  List.replicate (4 * depth) ' ' ++ text ++ ['\n']

/-- The words at the head of a branch. -/
def branchHead : Option Condition → List Char
  | some condition => ['i', 'f', ' '] ++ condition.name.toList
  | none => ['i', 'f']

mutual

/-- The lines of an instruction at a level of indentation. -/
def renderInstruction (depth : Nat) : Instruction → List Char
  | .move => renderLine depth "move".toList
  | .collect => renderLine depth "collect".toList
  | .turn side => renderLine depth ("turn ".toList ++ side.name.toList)
  | .loop times body =>
    renderLine depth ("repeat ".toList ++ Nat.toDigits 10 times.toNat) ++
      renderBlock (depth + 1) body
  | .branch condition whenTrue [] =>
    renderLine depth (branchHead condition) ++ renderBlock (depth + 1) whenTrue
  | .branch condition whenTrue (first :: rest) =>
    renderLine depth (branchHead condition) ++ renderBlock (depth + 1) whenTrue ++
      renderLine depth "else".toList ++
      (renderInstruction (depth + 1) first ++ renderBlock (depth + 1) rest)
  | .other kind => renderLine depth kind.toList

/-- The lines of a list of instructions at a level of indentation. -/
def renderBlock (depth : Nat) : List Instruction → List Char
  | [] => []
  | instruction :: rest => renderInstruction depth instruction ++ renderBlock depth rest

end

/-- The text of a program. -/
def render (program : Program) : String :=
  String.ofList (renderBlock 0 program)

end TileCourse.Program
