import TileCourse.Level.Basic
import TileCourse.Simulation.ErrorCode

/-!
# Verdicts on runs

A run succeeds if it ends without a failure and meets every clause of the level's goal. A success
earns three stars within the best number of steps, two within two steps more, and one otherwise or
if something was left uncollected.
-/

namespace TileCourse

/-- The verdict on a run. -/
structure Verdict where
  success : Bool
  stars : UInt8
  errorCode : Option ErrorCode
  deriving DecidableEq, Repr

namespace Goal

/-- Whether everything is collected, if that is asked. -/
def collectedMet (goal : Goal) (remaining : UInt32) : Bool :=
  goal.collectiblesRequired.isNone || remaining == 0

/-- Whether the run ends where it should, if that is asked. -/
def targetMet (goal : Goal) (point : Point) : Bool :=
  goal.target.all (· == point)

/-- Whether the run is short enough, if that is asked. -/
def limitMet (goal : Goal) (steps : UInt32) : Bool :=
  goal.stepLimit.all (steps ≤ ·)

/-- Whether every clause holds. -/
def met (goal : Goal) (point : Point) (remaining steps : UInt32) : Bool :=
  goal.collectedMet remaining && goal.targetMet point && goal.limitMet steps

end Goal

namespace Level

/-- The stars of a success. -/
def starRating (level : Level) (steps remaining : UInt32) : UInt8 :=
  if 0 < remaining then 1
  else if steps ≤ level.bestSteps then 3
  else if steps.toNat ≤ level.bestSteps.toNat + 2 then 2
  else 1

/-- The verdict on a run that ends at a point, with a failure or without one. -/
def verdict (level : Level) (failure : Option ErrorCode) (point : Point)
    (remaining steps : UInt32) : Verdict :=
  match failure with
  | some code => ⟨false, 0, some code⟩
  | none =>
    if level.goal.met point remaining steps then
      ⟨true, level.starRating steps remaining, none⟩
    else ⟨false, 0, some .goalNotMet⟩

end Level

end TileCourse
