import TileCourse.Decimal.Binary
import TileCourse.Simulation.Result
import TileCourse.Text.Table
import TileCourse.Text.TextSet

/-!
# Profiles

What is kept about a student: settings, an avatar with the outfits it has won, a record for every
level that was ever completed, and what has been achieved. The achievements and the access to the
sandbox follow from the records; `Progress.Totals` says how.
-/

namespace TileCourse

/-- The settings of a student. -/
structure Settings where
  /-- The loudness. -/
  volume : Single
  lowMotion : Bool
  language : String
  resettable : Bool
  deriving DecidableEq, Repr

/-- The settings unless something else is said. -/
def Settings.standard : Settings := ⟨⟨0x3F4CCCCD⟩, false, "zh-CN", true⟩

/-- A change of settings; what is absent stays as it is. -/
structure SettingsPatch where
  volume : Option Single
  lowMotion : Option Bool
  language : Option String
  resettable : Option Bool
  deriving DecidableEq, Repr

/-- The settings after a change. A loudness is brought between zero and one. -/
def Settings.apply (settings : Settings) (patch : SettingsPatch) : Settings where
  volume := (patch.volume.map Single.clampToUnit).getD settings.volume
  lowMotion := patch.lowMotion.getD settings.lowMotion
  language := patch.language.getD settings.language
  resettable := patch.resettable.getD settings.resettable

/-- The figure of a student. -/
structure Avatar where
  /-- The outfit it wears. -/
  equipped : String
  /-- The outfits it may wear. -/
  unlocked : TextSet
  deriving DecidableEq

/-- The figure that has one outfit and wears it. -/
def Avatar.starter (outfit : String) : Avatar := ⟨outfit, TextSet.empty.insert outfit⟩

/-- What has been achieved. -/
structure Achievements where
  badges : TextSet
  /-- An entry for every level with three stars. -/
  compendium : TextSet
  deriving DecidableEq

/-- Nothing has been achieved. -/
def Achievements.none : Achievements := ⟨.empty, .empty⟩

/-- What is known about a level that a student has completed. -/
structure LevelRecord where
  levelId : String
  /-- The most stars of any completion. -/
  stars : UInt8
  /-- The steps of the best run. -/
  steps : UInt32
  /-- The hints of all completions. -/
  hints : UInt32
  /-- The seconds of all completions. -/
  seconds : UInt64
  /-- By how many steps the best run misses the best number. -/
  difference : Option Int64
  /-- When the level was completed last, in milliseconds. -/
  completedAt : UInt64
  /-- The log of the last completion. -/
  replay : List Step
  deriving DecidableEq, Repr

/-- A completion as it is reported. -/
structure Completion where
  stars : UInt8
  steps : UInt32
  hints : UInt32
  seconds : UInt64
  /-- By how many steps the run misses the best number, if that is reported. -/
  difference : Option Int64
  replay : List Step
  deriving DecidableEq, Repr

/-- By how many steps a run misses the best number. -/
def stepDifference (steps best : UInt32) : Int64 :=
  Int64.ofInt ((steps.toNat : Int) - best.toNat)

/-- The completion that consists of a run. -/
def Completion.ofResult (result : Result) : Completion where
  stars := result.stars
  steps := result.steps
  hints := 0
  seconds := 0
  difference := some (stepDifference result.steps result.metadata.bestSteps)
  replay := result.log

/-- What is kept about a student. -/
structure Profile where
  id : String
  avatar : Avatar
  achievements : Achievements
  settings : Settings
  sandboxUnlocked : Bool
  /-- The records by the ids of their levels. -/
  progress : Table LevelRecord
  deriving DecidableEq

namespace Profile

/-- A student who has not done anything. -/
def fresh (id outfit : String) (settings : Settings) : Profile :=
  ⟨id, .starter outfit, .none, settings, false, .empty⟩

/-- The stars of a level; without a record there are none. -/
def starsFor (profile : Profile) (level : String) : UInt8 :=
  ((profile.progress.get? level).map (·.stars)).getD 0

/-- Whether a level has a star. -/
def hasCleared (profile : Profile) (level : String) : Bool := 0 < profile.starsFor level

end Profile

end TileCourse
