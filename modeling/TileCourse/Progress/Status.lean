import TileCourse.Catalog.Index
import TileCourse.Progress.Profile

/-!
# The status of a level

The first level of a chapter is open; any other opens as soon as the level before it has a star.
-/

namespace TileCourse

/-- Whether a level may be played, and whether it has been cleared. -/
inductive LevelStatus where
  | locked
  | unlocked
  | completed
  deriving DecidableEq, Repr

/-- The name of a status. -/
def LevelStatus.name : LevelStatus → String
  | .locked => "locked"
  | .unlocked => "unlocked"
  | .completed => "completed"

namespace Profile

/-- Whether a level is open to a student. -/
def isUnlocked (profile : Profile) (catalog : Catalog) (level : String) : Bool :=
  match catalog.predecessor? level with
  | some previous => profile.hasCleared previous
  | none => (catalog.slot? level).isSome

/-- The status of a level for a student; all levels may be open by decree. -/
def status (profile : Profile) (catalog : Catalog) (unlockAll : Bool) (level : String) :
    LevelStatus :=
  if profile.hasCleared level then .completed
  else if unlockAll || profile.isUnlocked catalog level then .unlocked
  else .locked

end Profile

end TileCourse
