import TileCourse.Simulation.Grid

/-!
# The world of a run

What changes in the course of a run: where the agent stands, how many steps it has taken, how much
is still to be collected, and what has been collected so far. A thing is known by its point and
its kind, and counts once however often it is collected.
-/

namespace TileCourse

/-- A thing that has been collected. -/
structure Pickup where
  point : Point
  kind : String
  deriving DecidableEq, Repr

/-- The key of a thing. -/
def Pickup.key (pickup : Pickup) : String :=
  s!"{pickup.point.x.toInt}:{pickup.point.y.toInt}:{pickup.kind}"

/-- The state of a run. -/
structure World where
  position : Position
  steps : UInt32
  /-- How much is still to be collected. -/
  remaining : UInt32
  /-- What has been collected, the latest first. -/
  visited : List Pickup
  deriving DecidableEq, Repr

namespace World

/-- The state at the start of a level. -/
def start (level : Level) : World := ⟨level.start, 0, level.collectibleCount, []⟩

/-- Collect a thing: whether it is new, and the state afterwards. -/
def collect (world : World) (point : Point) (kind : String) : Bool × World :=
  let pickup : Pickup := ⟨point, kind⟩
  if pickup ∈ world.visited then (false, world)
  else
    (true,
      { world with
        visited := pickup :: world.visited
        remaining := if world.remaining = 0 then 0 else world.remaining - 1 })

end World

end TileCourse
