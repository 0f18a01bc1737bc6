import TileCourse.Level.Wire
import TileCourse.Progress.Status
import TileCourse.Progress.Wire

/-!
# Views of a profile

What is shown to a student: a map of all levels with their status, a level with everything needed
to play it, the briefing before a level, and a summary of the profile.
-/

namespace TileCourse

/-- A level on the map. -/
structure LevelSummary where
  id : String
  name : String
  status : LevelStatus
  stars : UInt8
  difference : Option Int64
  deriving DecidableEq, Repr

/-- A chapter on the map. -/
structure ChapterView where
  id : String
  title : String
  levels : List LevelSummary
  deriving DecidableEq, Repr

/-- The map of all chapters. -/
structure MapView where
  chapters : List ChapterView
  deriving DecidableEq, Repr

/-- A level that is open to a student. -/
structure LevelDetail where
  level : Level
  chapterId : String
  status : LevelStatus
  record : Option LevelRecord
  deriving DecidableEq

/-- The briefing before a level. -/
structure LevelPrep where
  levelId : String
  goal : Goal
  allowedBlocks : TextSet
  comic : String
  rewards : Rewards
  deriving DecidableEq

/-- The summary of a profile. -/
structure ProfileSummary where
  id : String
  settings : Settings
  avatar : Avatar
  sandboxUnlocked : Bool
  achievements : Achievements
  deriving DecidableEq

/-- The briefing before a level. -/
def Level.prep (level : Level) : LevelPrep :=
  ⟨level.id, level.goal, level.allowedBlocks, level.comic, level.rewards⟩

namespace Profile

/-- A level on the map of a student. -/
def levelSummary (profile : Profile) (catalog : Catalog) (unlockAll : Bool) (level : Level) :
    LevelSummary :=
  let record := profile.progress.get? level.id
  { id := level.id
    name := level.name
    status := profile.status catalog unlockAll level.id
    stars := (record.map (·.stars)).getD 0
    difference := record.bind (·.difference) }

/-- The map of a student, in the order of play. -/
def map (profile : Profile) (catalog : Catalog) (unlockAll : Bool) : MapView :=
  ⟨catalog.chapters.map fun chapter =>
    ⟨chapter.id, chapter.title,
      (chapter.levelIds.filterMap catalog.level?).map
        (profile.levelSummary catalog unlockAll)⟩⟩

/-- The summary of a profile. -/
def summary (profile : Profile) : ProfileSummary :=
  ⟨profile.id, profile.settings, profile.avatar, profile.sandboxUnlocked, profile.achievements⟩

end Profile

open Json

instance : Wire LevelStatus :=
  ⟨Decoder.choice
      [("locked", .locked), ("unlocked", .unlocked), ("completed", .completed)],
    fun status => .text status.name⟩

/-- The fields of a level on the map. -/
def LevelSummary.plan :
    Plan LevelSummary
      (String → String → LevelStatus → UInt8 → Option Int64 → LevelSummary) :=
  .cons (.required "id" (·.id)) <|
  .cons (.required "name" (·.name)) <|
  .cons (.required "status" (·.status)) <|
  .cons (.required "stars" (·.stars)) <|
  .cons (.nullable "bestDifference" (·.difference)) .nil

instance : Wire LevelSummary :=
  ⟨LevelSummary.plan.decoder "LevelSummary" LevelSummary.mk, LevelSummary.plan.encoder⟩

/-- The fields of a chapter on the map. -/
def ChapterView.plan :
    Plan ChapterView (String → String → List LevelSummary → ChapterView) :=
  .cons (.required "id" (·.id)) <|
  .cons (.required "title" (·.title)) <|
  .cons (.required "levels" (·.levels)) .nil

instance : Wire ChapterView :=
  ⟨ChapterView.plan.decoder "ChapterView" ChapterView.mk, ChapterView.plan.encoder⟩

/-- The field of a map. -/
def MapView.plan : Plan MapView (List ChapterView → MapView) :=
  .cons (.required "chapters" (·.chapters)) .nil

instance : Wire MapView := ⟨MapView.plan.decoder "MapView" MapView.mk, MapView.plan.encoder⟩

/-- The open level that fields describe. -/
def LevelDetail.ofFields (id name : String) (width height : UInt32) (tiles : List Tile)
    (start : Position) (goal : Goal) (bestSteps : UInt32) (hints : List String)
    (allowedBlocks : TextSet) (comic : String) (rewards : Rewards) (chapterId : String)
    (status : LevelStatus) (record : Option LevelRecord) : LevelDetail :=
  ⟨⟨id, name, width, height, tiles, start, goal, bestSteps, hints, allowedBlocks, comic, rewards⟩,
    chapterId, status, record⟩

/-- The fields of an open level. -/
def LevelDetail.plan :
    Plan LevelDetail (String → String → UInt32 → UInt32 → List Tile → Position → Goal → UInt32 →
      List String → TextSet → String → Rewards → String → LevelStatus → Option LevelRecord →
      LevelDetail) :=
  .cons (.required "id" (·.level.id)) <|
  .cons (.required "name" (·.level.name)) <|
  .cons (.required "width" (·.level.width)) <|
  .cons (.required "height" (·.level.height)) <|
  .cons (.required "tiles" (·.level.tiles)) <|
  .cons (.required "start" (·.level.start)) <|
  .cons (.required "goal" (·.level.goal)) <|
  .cons (.required "bestSteps" (·.level.bestSteps)) <|
  .cons (.required "hints" (·.level.hints)) <|
  .cons (.required "allowedBlocks" (·.level.allowedBlocks)) <|
  .cons (.required "comic" (·.level.comic)) <|
  .cons (.required "rewards" (·.level.rewards)) <|
  .cons (.required "chapterId" (·.chapterId)) <|
  .cons (.required "status" (·.status)) <|
  .cons (.nullable "progress" (·.record)) .nil

instance : Wire LevelDetail :=
  ⟨LevelDetail.plan.decoder "LevelDetail" LevelDetail.ofFields, LevelDetail.plan.encoder⟩

/-- The fields of a briefing. -/
def LevelPrep.plan :
    Plan LevelPrep (String → Goal → TextSet → String → Rewards → LevelPrep) :=
  .cons (.required "levelId" (·.levelId)) <|
  .cons (.required "victoryCondition" (·.goal)) <|
  .cons (.required "allowedBlocks" (·.allowedBlocks)) <|
  .cons (.required "comic" (·.comic)) <|
  .cons (.required "rewards" (·.rewards)) .nil

instance : Wire LevelPrep :=
  ⟨LevelPrep.plan.decoder "LevelPrep" LevelPrep.mk, LevelPrep.plan.encoder⟩

/-- The fields of a summary. -/
def ProfileSummary.plan :
    Plan ProfileSummary
      (String → Settings → Avatar → Bool → Achievements → ProfileSummary) :=
  .cons (.required "id" (·.id)) <|
  .cons (.required "settings" (·.settings)) <|
  .cons (.required "avatar" (·.avatar)) <|
  .cons (.required "sandboxUnlocked" (·.sandboxUnlocked)) <|
  .cons (.required "achievements" (·.achievements)) .nil

instance : Wire ProfileSummary :=
  ⟨ProfileSummary.plan.decoder "ProfileSummary" ProfileSummary.mk, ProfileSummary.plan.encoder⟩

end TileCourse
