import TileCourse.Json.Wire
import TileCourse.Level.Basic

/-!
# Levels in JSON
-/

namespace TileCourse

open Json

instance : Wire Facing :=
  ⟨Decoder.choice
      [("north", .north), ("east", .east), ("south", .south), ("west", .west)],
    fun facing => .text facing.name⟩

/-- The fields of a point. -/
def Point.plan : Plan Point (Int32 → Int32 → Point) :=
  .cons (.required "x" (·.x)) <|
  .cons (.required "y" (·.y)) .nil

instance : Wire Point := ⟨Point.plan.decoder "Point" Point.mk, Point.plan.encoder⟩

/-- The fields of a position. -/
def Position.plan : Plan Position (Int32 → Int32 → Facing → Position) :=
  .cons (.required "x" (·.x)) <|
  .cons (.required "y" (·.y)) <|
  .cons (.required "facing" (·.facing)) .nil

instance : Wire Position := ⟨Position.plan.decoder "Position" Position.mk, Position.plan.encoder⟩

/-- The fields of a tile. -/
def Tile.plan : Plan Tile (Int32 → Int32 → Bool → Option String → Tile) :=
  .cons (.required "x" (·.x)) <|
  .cons (.required "y" (·.y)) <|
  .cons (.required "walkable" (·.walkable)) <|
  .cons (.optional "collectible" (·.collectible)) .nil

instance : Wire Tile := ⟨Tile.plan.decoder "Tile" Tile.mk, Tile.plan.encoder⟩

/-- The fields of a goal. -/
def Goal.plan : Plan Goal (Option UInt32 → Option Point → Option UInt32 → Goal) :=
  .cons ((Field.optional "collectiblesRequired" (·.collectiblesRequired)).orNamed "collectibles") <|
  .cons ((Field.optional "reachTarget" (·.target)).orNamed "reach") <|
  .cons (.optional "stepLimit" (·.stepLimit)) .nil

instance : Wire Goal := ⟨Goal.plan.decoder "LevelGoal" Goal.mk, Goal.plan.encoder⟩

/-- The fields of a reward. -/
def Rewards.plan : Plan Rewards (Option String → UInt8 → Rewards) :=
  .cons (((Field.nullable "outfitId" (·.outfit)).orNamed "outfit").orShort .none) <|
  .cons ((Field.required "starsRequired" (·.starsRequired)).orNamed "stars") .nil

instance : Wire Rewards := ⟨Rewards.plan.decoder "LevelRewards" Rewards.mk, Rewards.plan.encoder⟩

/-- The fields of a level. -/
def Level.plan :
    Plan Level (String → String → UInt32 → UInt32 → List Tile → Position → Goal → UInt32 →
      List String → TextSet → String → Rewards → Level) :=
  .cons (.required "id" (·.id)) <|
  .cons (.required "name" (·.name)) <|
  .cons (.required "width" (·.width)) <|
  .cons (.required "height" (·.height)) <|
  .cons (.required "tiles" (·.tiles)) <|
  .cons (.required "start" (·.start)) <|
  .cons (.defaulted "goal" .none (·.goal)) <|
  .cons (.required "bestSteps" (·.bestSteps)) <|
  .cons (.defaulted "hints" [] (·.hints)) <|
  .cons ((Field.defaulted "allowedBlocks" .empty (·.allowedBlocks)).orNamed
    "allowedInstructionKinds") <|
  .cons (.defaulted "comic" "" (·.comic)) <|
  .cons (.defaulted "rewards" .none (·.rewards)) .nil

instance : Wire Level := ⟨Level.plan.decoder "LevelDefinition" Level.mk, Level.plan.encoder⟩

end TileCourse
