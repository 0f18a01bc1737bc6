import TileCourse.Level.Place
import TileCourse.Text.TextSet

/-!
# Levels

A level is a grid of tiles with a start, a goal, and what surrounds a run: hints, the instructions
that are allowed, the number of steps that counts as best, and a reward.
-/

namespace TileCourse

/-- A tile of a grid. -/
structure Tile where
  x : Int32
  y : Int32
  /-- Whether the agent may stand on the tile. -/
  walkable : Bool
  /-- What lies on the tile. -/
  collectible : Option String
  deriving DecidableEq, Repr

/-- The point of a tile. -/
def Tile.point (tile : Tile) : Point := ⟨tile.x, tile.y⟩

/-- What a run must achieve; each clause counts only if it is present. -/
structure Goal where
  /-- Everything must be collected. -/
  collectiblesRequired : Option UInt32
  /-- The run must end at a point. -/
  target : Option Point
  /-- The run must not take more steps. -/
  stepLimit : Option UInt32
  deriving DecidableEq, Repr

/-- The goal without clauses. -/
def Goal.none : Goal := ⟨.none, .none, .none⟩

/-- What clearing a level earns. -/
structure Rewards where
  /-- An outfit. -/
  outfit : Option String
  /-- The number of stars that earns it. -/
  starsRequired : UInt8
  deriving DecidableEq, Repr

/-- No outfit, which three stars would earn. -/
def Rewards.none : Rewards := ⟨.none, 3⟩

/-- A level. -/
structure Level where
  id : String
  name : String
  width : UInt32
  height : UInt32
  /-- The tiles; of several on one point, the first decides what lies there. -/
  tiles : List Tile
  start : Position
  goal : Goal
  bestSteps : UInt32
  /-- Hints in the order in which they are given. -/
  hints : List String
  /-- The codes of the instructions that are allowed; if there are none, all are. -/
  allowedBlocks : TextSet
  comic : String
  rewards : Rewards
  deriving DecidableEq

namespace Level

/-- Whether a point lies on the grid. -/
def inBounds (level : Level) (point : Point) : Bool :=
  0 ≤ point.x.toInt && 0 ≤ point.y.toInt &&
    point.x.toInt < level.width.toNat && point.y.toInt < level.height.toNat

/-- The number of tiles on which something lies. -/
def collectibleCount (level : Level) : UInt32 :=
  UInt32.ofNat (level.tiles.countP fun tile => tile.collectible.isSome)

end Level

end TileCourse
