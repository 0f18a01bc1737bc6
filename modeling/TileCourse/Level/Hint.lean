import TileCourse.Level.Basic
import TileCourse.Simulation.ErrorCode

/-!
# Hints

What a student is told before the next attempt. The first attempt gets the level's first hint; a
later one gets advice on the last failure if there is any, and else the next of the level's hints,
the last one again and again.
-/

namespace TileCourse

/-- The advice on a failure. -/
def ErrorCode.advice? : ErrorCode → Option String
  | .collide => some "Oops, something is in the way! Try adjusting your turns."
  | .stepLimit => some "That's a lot of steps. Try using a repeat block!"
  | .goalNotMet =>
    some "You finished without meeting the goal. Check what the level asks for."
  | .loopDepth =>
    some "Your blocks are nested too deeply. Try simplifying your loops."
  | .unsupported _ => none

namespace Level

/-- The hint for a first attempt at a level without hints. -/
def firstTryHint : String := "Try running your program and watch what happens."

/-- The hint for a later attempt at a level without hints. -/
def fallbackHint : String := "Check the order of your blocks."

/-- The hint of the level for an attempt. -/
def scriptedHint (level : Level) (attempts : UInt32) : String :=
  (level.hints[min attempts.toNat (level.hints.length - 1)]?).getD fallbackHint

/-- The hint after a number of attempts, the last of which may have failed. -/
def hint (level : Level) (attempts : UInt32) (lastError : Option ErrorCode) : String :=
  if attempts = 0 then level.hints.head?.getD firstTryHint
  else (lastError.bind ErrorCode.advice?).getD (level.scriptedHint attempts)

/-- The hint for a failure that is stated by its code; an unknown code counts as none. -/
def hintForCode (level : Level) (attempts : UInt32) (lastCode : Option String) : String :=
  level.hint attempts (lastCode.bind ErrorCode.parse?)

end Level

end TileCourse
