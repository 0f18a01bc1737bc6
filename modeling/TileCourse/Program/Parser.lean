import TileCourse.Program.Basic
import TileCourse.Program.Line
import TileCourse.Text.Numeral

/-!
# Reading program texts

`Program.parse` reads a program from its lines. A line is an instruction of its own or the head of
a block; the lines of a block are indented by one level more than its head. An `if` may be followed
by an `else` at its own level. The first problem in the order of the lines is reported, after
those of the indentation itself.
-/

namespace TileCourse

/-- What the words of a line say. -/
inductive Head where
  /-- An instruction without a block. -/
  | simple (instruction : Instruction)
  /-- The head of a loop. -/
  | loop (times : UInt32)
  /-- The head of a branch. -/
  | branch (condition : Option Condition)
  deriving Repr

namespace Line

/-- Refuse the words that an instruction does not take. -/
def noMore : List Word → Except ParseError Unit
  | [] => .ok ()
  | word :: _ => .error (.unexpectedToken word.text word.span)

/-- The only argument of an instruction. -/
def argument (keyword : Word) : List Word → Except ParseError Word
  | [] => .error (.missingArgument keyword.text keyword.span)
  | word :: rest => (noMore rest).map fun _ => word

/-- The side that a word names. -/
def side (word : Word) : Except ParseError Side :=
  if word.text = "left" then .ok .left
  else if word.text = "right" then .ok .right
  else .error (.invalidDirection word.text word.span)

/-- The count that a word states. -/
def count (word : Word) : Except ParseError UInt32 :=
  match Text.numeral word.text.toList with
  | .ok n => .ok n
  | .error _ => .error (.invalidRepeatCount word.text word.span)

/-- The condition that the words after an `if` name; there may be none. -/
def condition : List Word → Except ParseError (Option Condition)
  | [] => .ok none
  | word :: rest =>
    match Condition.ofName? word.text with
    | none => .error (.unknownCondition word.text word.span)
    | some condition => (noMore rest).map fun _ => some condition

/-- What a line says. -/
def head (line : Line) : Except ParseError Head :=
  match line.words with
  | [] => .error (.invalidIndentation line.span)
  | keyword :: rest =>
    match keyword.text with
    | "move" => (noMore rest).map fun _ => .simple .move
    | "collect" => (noMore rest).map fun _ => .simple .collect
    | "turn" =>
      match argument keyword rest with
      | .error error => .error error
      | .ok word => (side word).map fun side => .simple (.turn side)
    | "repeat" =>
      match argument keyword rest with
      | .error error => .error error
      | .ok word => (count word).map .loop
    | "if" => (condition rest).map .branch
    | "else" => .error (.unexpectedElse keyword.span)
    | kind => (noMore rest).map fun _ => .simple (.other kind)

/-- Whether the line starts with `else`. -/
def isElse (line : Line) : Bool :=
  match line.words with
  | keyword :: _ => keyword.text == "else"
  | [] => false

end Line

namespace Program

/-- A block that has been read, with the lines after it. -/
structure Block (bound : Nat) where
  /-- The instructions of the block. -/
  body : Program
  /-- The lines that follow. -/
  rest : List Line
  /-- No line is added. -/
  le : rest.length ≤ bound

/-- Read the block of the lines indented to a level. It ends before the first line that is
indented less. -/
def parseBlock (indent : Nat) (lines : List Line) : Except ParseError (Block lines.length) :=
  match lines with
  | [] => .ok ⟨[], [], Nat.le_refl _⟩
  | line :: rest =>
    if line.indent < indent then .ok ⟨[], line :: rest, Nat.le_refl _⟩
    else if indent < line.indent then .error (.invalidIndentation line.span)
    else
      match line.head with
      | .error error => .error error
      | .ok (.simple instruction) =>
        match parseBlock indent rest with
        | .error error => .error error
        | .ok others => .ok ⟨instruction :: others.body, others.rest, Nat.le_succ_of_le others.le⟩
      | .ok (.loop times) =>
        match parseBlock (indent + 1) rest with
        | .error error => .error error
        | .ok ⟨body, after, hafter⟩ =>
          match parseBlock indent after with
          | .error error => .error error
          | .ok others =>
            .ok ⟨.loop times body :: others.body, others.rest,
              Nat.le_succ_of_le (Nat.le_trans others.le hafter)⟩
      | .ok (.branch condition) =>
        match parseBlock (indent + 1) rest with
        | .error error => .error error
        | .ok ⟨whenTrue, [], hafter⟩ =>
          .ok ⟨[.branch condition whenTrue []], [], Nat.zero_le _⟩
        | .ok ⟨whenTrue, next :: after, hafter⟩ =>
          if next.indent = indent ∧ next.isElse then
            match Line.noMore (next.words.drop 1) with
            | .error error => .error error
            | .ok () =>
              have hnext : after.length < rest.length := hafter
              match parseBlock (indent + 1) after with
              | .error error => .error error
              | .ok ⟨whenFalse, final, hfinal⟩ =>
                match parseBlock indent final with
                | .error error => .error error
                | .ok others =>
                  .ok ⟨.branch condition whenTrue whenFalse :: others.body, others.rest, by
                    have := others.le
                    simp only [List.length_cons]
                    omega⟩
          else
            match parseBlock indent (next :: after) with
            | .error error => .error error
            | .ok others =>
              .ok ⟨.branch condition whenTrue [] :: others.body, others.rest,
                Nat.le_succ_of_le (Nat.le_trans others.le hafter)⟩
termination_by lines.length

/-- Read a program from its lines. -/
def ofLines (lines : List Line) : Except ParseError Program :=
  match parseBlock 0 lines with
  | .error error => .error error
  | .ok block =>
    match block.rest with
    | [] => .ok block.body
    | line :: _ => .error (.invalidIndentation line.span)

/-- Read a program from its text. -/
def parse (source : String) : Except ParseError Program :=
  match Line.split source.toList with
  | .error error => .error error
  | .ok lines => ofLines lines

end Program

end TileCourse
