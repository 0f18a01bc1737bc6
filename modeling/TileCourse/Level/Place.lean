/-!
# Places on a grid

Points of a grid, the four directions one can face, and positions: a point with a direction. The
second coordinate grows towards the south.
-/

namespace TileCourse

/-- A direction one can face. -/
inductive Facing where
  | north
  | east
  | south
  | west
  deriving DecidableEq, Repr

namespace Facing

/-- The direction to the right. -/
def right : Facing → Facing
  | north => east
  | east => south
  | south => west
  | west => north

/-- The direction to the left. -/
def left : Facing → Facing
  | north => west
  | east => north
  | south => east
  | west => south

/-- How one step changes the coordinates. -/
def delta : Facing → Int32 × Int32
  | north => (0, -1)
  | east => (1, 0)
  | south => (0, 1)
  | west => (-1, 0)

/-- The name of a direction. -/
def name : Facing → String
  | north => "north"
  | east => "east"
  | south => "south"
  | west => "west"

end Facing

/-- A point of a grid. -/
structure Point where
  x : Int32
  y : Int32
  deriving DecidableEq, Repr

/-- A point with a direction. -/
structure Position where
  x : Int32
  y : Int32
  facing : Facing
  deriving DecidableEq, Repr

namespace Position

/-- The point without the direction. -/
def point (position : Position) : Point := ⟨position.x, position.y⟩

/-- The point one step ahead. -/
def ahead (position : Position) : Point :=
  let (dx, dy) := position.facing.delta
  ⟨position.x + dx, position.y + dy⟩

/-- The same direction at another point. -/
def moveTo (position : Position) (point : Point) : Position :=
  ⟨point.x, point.y, position.facing⟩

end Position

end TileCourse
