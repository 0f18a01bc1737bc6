import TileCourse.Level.Basic
import TileCourse.Progress.Profile

/-!
# Completions of a level

Completing a level again never makes its record worse: stars are the most of any completion, hints
and seconds add up, and steps are those of the best run with a star. The log and the time are
always those of the last completion.
-/

namespace TileCourse

/-- The sum of two numbers of hints, or the greatest number there is. -/
def addHints (a b : UInt32) : UInt32 := UInt32.ofNat (min (a.toNat + b.toNat) (1 <<< 32 - 1))

/-- The sum of two numbers of seconds, or the greatest number there is. -/
def addSeconds (a b : UInt64) : UInt64 := UInt64.ofNat (min (a.toNat + b.toNat) (1 <<< 64 - 1))

namespace Completion

/-- By how many steps the run misses the best number, as reported or else as counted. -/
def differenceOn (completion : Completion) (level : Level) : Int64 :=
  completion.difference.getD (stepDifference completion.steps level.bestSteps)

/-- The record of a level that is completed for the first time. -/
def firstRecord (completion : Completion) (level : Level) (now : UInt64) : LevelRecord where
  levelId := level.id
  stars := completion.stars
  steps := completion.steps
  hints := completion.hints
  seconds := completion.seconds
  difference := some (completion.differenceOn level)
  completedAt := now
  replay := completion.replay

/-- Whether the run is better than the best one of a record. -/
def improves (completion : Completion) (record : LevelRecord) : Bool :=
  0 < completion.stars && (record.stars == 0 || completion.steps < record.steps)

/-- The record after one more completion. -/
def updateRecord (completion : Completion) (level : Level) (now : UInt64)
    (record : LevelRecord) : LevelRecord where
  levelId := record.levelId
  stars := max record.stars completion.stars
  steps := if completion.improves record then completion.steps else record.steps
  hints := addHints record.hints completion.hints
  seconds := addSeconds record.seconds completion.seconds
  difference :=
    if completion.improves record then some (completion.differenceOn level)
    else record.difference
  completedAt := now
  replay := completion.replay

/-- The record after a completion, given the one before it if there is one. -/
def merge (completion : Completion) (level : Level) (now : UInt64) :
    Option LevelRecord → LevelRecord
  | none => completion.firstRecord level now
  | some record => completion.updateRecord level now record

end Completion

end TileCourse
