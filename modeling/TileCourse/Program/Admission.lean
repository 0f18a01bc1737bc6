import TileCourse.Level.Basic
import TileCourse.Program.Basic

/-!
# Admission of programs

A level may allow only some instructions. A program is admitted to it if it is not empty and if
every instruction in it, at any depth and whether it is ever reached or not, has a code that is
allowed. The first instruction that is not allowed is reported, in the order of the text.
-/

namespace TileCourse

/-- Why a program is not admitted. -/
inductive Rejection where
  | emptyProgram
  | blockNotAllowed (code : String)
  deriving DecidableEq, Repr

namespace Rejection

/-- The wording of a rejection. -/
def message : Rejection → String
  | emptyProgram => "program is empty"
  | blockNotAllowed code => "instruction block '" ++ code ++ "' is not allowed in this level"

/-- The code of a rejection: that of the instruction, if one is to blame. -/
def code : Rejection → String
  | emptyProgram => "E_EMPTY_PROGRAM"
  | blockNotAllowed code => code

end Rejection

namespace Instruction

mutual

/-- The code of the first instruction that is not allowed: the instruction itself, or one inside
it. -/
def firstForbidden? (allowed : TextSet) (instruction : Instruction) : Option String :=
  if instruction.blockCode ∈ allowed then
    match instruction with
    | .loop _ body => firstForbiddenIn? allowed body
    | .branch _ whenTrue whenFalse =>
      (firstForbiddenIn? allowed whenTrue).or (firstForbiddenIn? allowed whenFalse)
    | _ => none
  else some instruction.blockCode

/-- The code of the first instruction of a list that is not allowed. -/
def firstForbiddenIn? (allowed : TextSet) : List Instruction → Option String
  | [] => none
  | instruction :: rest =>
    (firstForbidden? allowed instruction).or (firstForbiddenIn? allowed rest)

end

end Instruction

namespace Level

/-- Accept a program on a level, or say why not. -/
def accept (level : Level) (program : Program) : Except Rejection Unit :=
  if program.isEmpty then .error .emptyProgram
  else if level.allowedBlocks.isEmpty then .ok ()
  else
    match Instruction.firstForbiddenIn? level.allowedBlocks program with
    | some code => .error (.blockNotAllowed code)
    | none => .ok ()

end Level

end TileCourse
