import TileCourse.Level.Basic

/-!
# The grid of a level

The tiles of a level, gathered by points. Tiles on one point make one cell: it can be walked on if
any of them can, and what lies there is what lies on the first of them.
-/

namespace TileCourse

/-- What is known about a point. -/
structure Cell where
  walkable : Bool
  collectible : Option String
  deriving DecidableEq, Repr

/-- The tiles of a level, gathered by points. -/
structure Grid where
  level : Level
  /-- The cells of the points on which there is a tile, each point once. -/
  cells : List (Point × Cell)

namespace Grid

/-- Add a tile to the cell of its point. -/
def addTile (tile : Tile) : List (Point × Cell) → List (Point × Cell)
  | [] => [(tile.point, ⟨tile.walkable, tile.collectible⟩)]
  | (point, cell) :: rest =>
    if point = tile.point then
      (point, { cell with walkable := cell.walkable || tile.walkable }) :: rest
    else (point, cell) :: addTile tile rest

/-- The grid of a level. -/
def ofLevel (level : Level) : Grid :=
  ⟨level, level.tiles.foldl (fun cells tile => addTile tile cells) []⟩

/-- The cell of a point. -/
def cellAt? (point : Point) : List (Point × Cell) → Option Cell
  | [] => none
  | (p, cell) :: rest => if p = point then some cell else cellAt? point rest

/-- Whether the agent may stand on a point. -/
def isWalkable (grid : Grid) (point : Point) : Bool :=
  grid.level.inBounds point &&
    match cellAt? point grid.cells with
    | some cell => cell.walkable
    | none => false

/-- What lies on a point. -/
def collectibleAt? (grid : Grid) (point : Point) : Option String :=
  match cellAt? point grid.cells with
  | some cell => cell.collectible
  | none => none

end Grid

end TileCourse
