import TileCourse.Json.Wire
import TileCourse.Progress.Profile

/-!
# Profiles in JSON
-/

namespace TileCourse

open Json

/-- The fields of settings. -/
def Settings.plan : Plan Settings (Single → Bool → String → Bool → Settings) :=
  .cons (.defaulted "volume" Settings.standard.volume (·.volume)) <|
  .cons (.defaulted "lowMotion" Settings.standard.lowMotion (·.lowMotion)) <|
  .cons (.defaulted "language" Settings.standard.language (·.language)) <|
  .cons (.defaulted "resettable" Settings.standard.resettable (·.resettable)) .nil

instance : Wire Settings :=
  ⟨Settings.plan.decoder "StudentSettings" Settings.mk, Settings.plan.encoder⟩

/-- The fields of a change of settings. -/
def SettingsPatch.plan :
    Plan SettingsPatch
      (Option Single → Option Bool → Option String → Option Bool → SettingsPatch) :=
  .cons (.optional "volume" (·.volume)) <|
  .cons (.optional "lowMotion" (·.lowMotion)) <|
  .cons (.optional "language" (·.language)) <|
  .cons (.optional "resettable" (·.resettable)) .nil

instance : Wire SettingsPatch :=
  ⟨SettingsPatch.plan.decoder "SettingsPatch" SettingsPatch.mk, SettingsPatch.plan.encoder⟩

/-- The fields of an avatar. -/
def Avatar.plan : Plan Avatar (String → TextSet → Avatar) :=
  .cons (.required "equipped" (·.equipped)) <|
  .cons (.required "unlocked" (·.unlocked)) .nil

instance : Wire Avatar := ⟨Avatar.plan.decoder "Avatar" Avatar.mk, Avatar.plan.encoder⟩

/-- The fields of achievements. -/
def Achievements.plan : Plan Achievements (TextSet → TextSet → Achievements) :=
  .cons (.required "badges" (·.badges)) <|
  .cons (.required "compendium" (·.compendium)) .nil

instance : Wire Achievements :=
  ⟨Achievements.plan.decoder "Achievements" Achievements.mk, Achievements.plan.encoder⟩

/-- The fields of a record. -/
def LevelRecord.plan :
    Plan LevelRecord (String → UInt8 → UInt32 → UInt32 → UInt64 → Option Int64 → UInt64 →
      List Step → LevelRecord) :=
  .cons (.required "levelId" (·.levelId)) <|
  .cons (.required "stars" (·.stars)) <|
  .cons (.required "steps" (·.steps)) <|
  .cons ((Field.required "hintsUsed" (·.hints)).orNamed "hints") <|
  .cons ((Field.required "durationSeconds" (·.seconds)).orNamed "duration") <|
  .cons (.nullable "bestDifference" (·.difference)) <|
  .cons ((Field.required "completedAtEpochMs" (·.completedAt)).orNamed "completedAt") <|
  .cons (.defaulted "replayLog" [] (·.replay)) .nil

instance : Wire LevelRecord :=
  ⟨LevelRecord.plan.decoder "StudentLevelProgress" LevelRecord.mk, LevelRecord.plan.encoder⟩

/-- The fields of a completion. -/
def Completion.plan :
    Plan Completion
      (UInt8 → UInt32 → UInt32 → UInt64 → Option Int64 → List Step → Completion) :=
  .cons (.required "stars" (·.stars)) <|
  .cons (.required "steps" (·.steps)) <|
  .cons ((Field.defaulted "hintsUsed" 0 (·.hints)).orNamed "hints") <|
  .cons ((Field.defaulted "durationSeconds" 0 (·.seconds)).orNamed "duration") <|
  .cons ((Field.nullable "bestDifference" (·.difference)).orShort none) <|
  .cons (.defaulted "replayLog" [] (·.replay)) .nil

instance : Wire Completion :=
  ⟨Completion.plan.decoder "CompleteRequest" Completion.mk, Completion.plan.encoder⟩

/-- The fields of a profile. -/
def Profile.plan :
    Plan Profile
      (String → Avatar → Achievements → Settings → Bool → Table LevelRecord → Profile) :=
  .cons (.required "id" (·.id)) <|
  .cons (.required "avatar" (·.avatar)) <|
  .cons (.defaulted "achievements" .none (·.achievements)) <|
  .cons (.defaulted "settings" .standard (·.settings)) <|
  .cons (.defaulted "sandboxUnlocked" false (·.sandboxUnlocked)) <|
  .cons (.defaulted "progress" .empty (·.progress)) .nil

instance : Wire Profile :=
  ⟨Profile.plan.decoder "StudentProfile" Profile.mk, Profile.plan.encoder⟩

end TileCourse
