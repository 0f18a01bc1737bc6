import TileCourse.Level.Wire
import TileCourse.Program.Wire
import TileCourse.Simulation.ErrorCode

/-!
# Results of runs

What is told about a run: its verdict, where it ended, and a log of its steps. Each step holds the
state before its instruction was carried out, so a log can be replayed.
-/

namespace TileCourse

/-- A step of a run, with the state before it. -/
structure Step where
  /-- The number of the step; the first is one. -/
  index : UInt32
  instruction : Instruction
  position : Position
  /-- How much was still to be collected. -/
  collectibles : UInt32
  deriving DecidableEq, Repr

/-- What a result tells about the level. -/
structure Metadata where
  bestSteps : UInt32
  goal : Goal
  deriving DecidableEq, Repr

/-- The result of a run. -/
structure Result where
  success : Bool
  steps : UInt32
  stars : UInt8
  errorCode : Option ErrorCode
  remaining : UInt32
  position : Position
  log : List Step
  metadata : Metadata
  deriving DecidableEq, Repr

open Json

/-- The fields of a step. -/
def Step.plan : Plan Step (UInt32 → Instruction → Position → UInt32 → Step) :=
  .cons (.required "index" (·.index)) <|
  .cons (.required "instruction" (·.instruction)) <|
  .cons (.required "position" (·.position)) <|
  .cons (.required "collectibles" (·.collectibles)) .nil

instance : Wire Step := ⟨Step.plan.decoder "SimulationStep" Step.mk, Step.plan.encoder⟩

/-- The fields of what a result tells about the level. -/
def Metadata.plan : Plan Metadata (UInt32 → Goal → Metadata) :=
  .cons (.required "bestSteps" (·.bestSteps)) <|
  .cons (.required "goal" (·.goal)) .nil

instance : Wire Metadata :=
  ⟨Metadata.plan.decoder "SimulationMetadata" Metadata.mk, Metadata.plan.encoder⟩

/-- The fields of a result. -/
def Result.plan :
    Plan Result (Bool → UInt32 → UInt8 → Option ErrorCode → UInt32 → Position → List Step →
      Metadata → Result) :=
  .cons (.required "success" (·.success)) <|
  .cons (.required "steps" (·.steps)) <|
  .cons (.required "stars" (·.stars)) <|
  .cons (.optional "errorCode" (·.errorCode)) <|
  .cons (.required "remainingCollectibles" (·.remaining)) <|
  .cons (.required "position" (·.position)) <|
  .cons (.defaulted "log" [] (·.log)) <|
  .cons (.required "metadata" (·.metadata)) .nil

instance : Wire Result := ⟨Result.plan.decoder "SimulationResult" Result.mk, Result.plan.encoder⟩

end TileCourse
