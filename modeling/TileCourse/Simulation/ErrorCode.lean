import TileCourse.Json.Wire
import TileCourse.Program.Basic

/-!
# Codes of failed runs

Why a run failed, as a value and as the code by which it is known outside. The code of an
instruction of an unknown kind names the kind.
-/

namespace TileCourse

/-- Why a run failed. -/
inductive ErrorCode where
  /-- The agent walked against something. -/
  | collide
  /-- The steps were used up. -/
  | stepLimit
  /-- Blocks are nested too deeply. -/
  | loopDepth
  /-- The run ended, but not at the goal. -/
  | goalNotMet
  /-- An instruction of an unknown kind was met. -/
  | unsupported (kind : String)
  deriving DecidableEq, Repr

namespace ErrorCode

/-- The failure of meeting an instruction of an unknown kind. -/
def ofKind (kind : String) : ErrorCode := .unsupported (codeOfKind kind)

/-- What every code of an unknown kind begins with. -/
def unsupportedStem : String := "E_UNSUPPORTED_"

/-- The code of a failure. -/
def render : ErrorCode → String
  | collide => "E_COLLIDE"
  | stepLimit => "E_STEP_LIMIT"
  | loopDepth => "E_LOOP_DEPTH"
  | goalNotMet => "E_GOAL_NOT_MET"
  | unsupported kind => unsupportedStem ++ kind

/-- What remains of a list after another one at its front. -/
def dropStem? : List Char → List Char → Option (List Char)
  | [], cs => some cs
  | _ :: _, [] => none
  | s :: stem, c :: cs => if s = c then dropStem? stem cs else none

/-- The failure with a code. -/
def parse? (code : String) : Option ErrorCode :=
  match code with
  | "E_COLLIDE" => some .collide
  | "E_STEP_LIMIT" => some .stepLimit
  | "E_LOOP_DEPTH" => some .loopDepth
  | "E_GOAL_NOT_MET" => some .goalNotMet
  | code =>
    match dropStem? unsupportedStem.toList code.toList with
    | some [] => none
    | some kind => some (.ofKind (String.ofList kind))
    | none => none

/-- The message about a text that is no code. -/
def unknownMessage (code : String) : String := "unknown error code '" ++ code ++ "'"

end ErrorCode

open Json in
instance : Wire ErrorCode :=
  ⟨Decoder.refine
      (fun code => (ErrorCode.parse? code).elim (.error (ErrorCode.unknownMessage code)) .ok)
      Decoder.text,
    fun code => .text code.render⟩

end TileCourse
