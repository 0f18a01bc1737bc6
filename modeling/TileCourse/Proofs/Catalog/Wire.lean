import TileCourse.Catalog.Basic
import TileCourse.Proofs.Json.Naming

/-!
# Catalogs in JSON

The source of a catalog is decoded from every spelling of its form, with the goals and the rewards
of its levels under any of their names. Nothing in it is deep, and nothing states anything else than
it means, so only the room for its own brackets is needed.
-/

namespace TileCourse

open Json Decoder

/-! ### Plans -/

section Plans

attribute [local simp] Plan.Sound Plan.names Plan.Always Field.answersTo Field.required
  Field.defaulted Field.optional Field.nullable Field.orNamed Field.orShort

/-- Points are made of their fields, and every field has a name of its own. -/
theorem Point.plan_sound : Point.plan.Sound Point.mk := by simp [Point.plan]

/-- Positions are made of their fields, and every field has a name of its own. -/
theorem Position.plan_sound : Position.plan.Sound Position.mk := by simp [Position.plan]

/-- Tiles are made of their fields, and every field has a name of its own. -/
theorem Tile.plan_sound : Tile.plan.Sound Tile.mk := by simp [Tile.plan]

/-- Goals are made of their fields, and every field has names of its own. -/
theorem Goal.plan_sound : Goal.plan.Sound Goal.mk := by simp [Goal.plan]

/-- Rewards are made of their fields, and every field has names of its own. -/
theorem Rewards.plan_sound : Rewards.plan.Sound Rewards.mk := by simp [Rewards.plan]

/-- Levels are made of their fields, and every field has names of its own. -/
theorem Level.plan_sound : Level.plan.Sound Level.mk := by simp [Level.plan]

/-- Chapters are made of their fields, and every field has a name of its own. -/
theorem Chapter.plan_sound : Chapter.plan.Sound Chapter.mk := by simp [Chapter.plan]

/-- Courses are made of their fields, and every field has a name of its own. -/
theorem Course.plan_sound : Course.plan.Sound Course.mk := by simp [Course.plan]

/-- Sources are made of their fields, and every field has a name of its own. -/
theorem CatalogSource.plan_sound : CatalogSource.plan.Sound CatalogSource.mk := by
  simp [CatalogSource.plan]

end Plans

/-! ### Levels -/

/-- A direction is read back from its name. -/
theorem Facing.restores (facing : Facing) :
    (Wire.decode (α := Facing)).Restores (Wire.encode facing) facing fun _ => True := by
  cases facing <;> exact choice_restores rfl

/-- A position is read back wherever there is room for it. -/
theorem Position.keeps (position : Position) :
    (Wire.decode (α := Position)).Keeps .plain (Wire.encode position) position True :=
  have h : Position.plan.Kept position (fun _ => .plain) _ :=
    .written rfl ((i32_restores position.x).keeps_scalar rfl) <|
      .written rfl ((i32_restores position.y).keeps_scalar rfl) <|
      .written rfl (position.facing.restores.keeps_scalar rfl) .nil
  (h.keeps "Position" Position.plan_sound rfl).plain.congr (by simp)

/-- A position is restored by one object. -/
theorem Position.restores (position : Position) :
    (Wire.decode (α := Position)).Restores (Wire.encode position) position (0 < ·) :=
  (position.keeps _ (.same _ _)).congr fun _ => and_iff_left trivial

/-- A point is read back wherever there is room for it. -/
theorem Point.keeps (point : Point) :
    (Wire.decode (α := Point)).Keeps .plain (Wire.encode point) point True := by
  have h : Point.plan.Kept point (fun _ => .plain) _ :=
    .written rfl ((i32_restores point.x).keeps_scalar rfl) <|
      .written rfl ((i32_restores point.y).keeps_scalar rfl) .nil
  exact (h.keeps "Point" Point.plan_sound rfl).plain.congr (by simp)

/-- A tile is read back, with or without something on it. -/
theorem Tile.keeps (tile : Tile) :
    (Wire.decode (α := Tile)).Keeps .plain (Wire.encode tile) tile True := by
  have h : Tile.plan.Kept tile (fun _ => .plain) _ :=
    .written rfl ((i32_restores tile.x).keeps_scalar rfl) <|
      .written rfl ((i32_restores tile.y).keeps_scalar rfl) <|
      .written rfl ((bool_restores tile.walkable).keeps_scalar rfl) <|
      .optional (fun _ => rfl) rfl
        (fun s => ((text_restores s).keeps_scalar rfl).optional (by simp)) .nil
  exact (h.keeps "Tile" Tile.plan_sound rfl).plain.congr (by simp)

/-- The names in a goal. -/
def Goal.naming : Naming := .record Goal.plan.fieldOf? fun _ => .plain

/-- A goal is read back with any of its names, absent clauses included. -/
theorem Goal.keeps (goal : Goal) :
    (Wire.decode (α := Goal)).Keeps naming (Wire.encode goal) goal True := by
  have h : Goal.plan.Kept goal (fun _ => .plain) _ :=
    .optional (fun _ => rfl) rfl
        (fun n => ((u32_restores n).keeps_scalar rfl).optional nofun) <|
      .optional (fun _ => rfl) rfl (fun point => point.keeps.optional nofun) <|
      .optional (fun _ => rfl) rfl
        (fun n => ((u32_restores n).keeps_scalar rfl).optional nofun) .nil
  exact (h.keeps "LevelGoal" Goal.plan_sound rfl).congr (by simp)

/-- A goal with a doubled member is refused. -/
theorem Goal.shuns : (Wire.decode (α := Goal)).Shuns naming :=
  Plan.shuns "LevelGoal" (Plan.shuns_of_plain _) Goal.plan_sound

/-- An outfit is read back, and so is its absence. -/
theorem outfit_restores (outfit : Option String) :
    (Decoder.optional (Wire.decode (α := String))).Restores
      ((outfit.map Wire.encode).getD .null) outfit fun _ => True := by
  cases outfit with
  | none => exact absent_restores _
  | some s => exact (text_restores s).optional nofun

/-- The names in a reward. -/
def Rewards.naming : Naming := .record Rewards.plan.fieldOf? fun _ => .plain

/-- Rewards are read back with any of their names. -/
theorem Rewards.keeps (rewards : Rewards) :
    (Wire.decode (α := Rewards)).Keeps naming (Wire.encode rewards) rewards True := by
  have hdepth : ((rewards.outfit.map Wire.encode).getD .null).depth = 0 := by
    cases rewards.outfit <;> rfl
  have h : Rewards.plan.Kept rewards (fun _ => .plain) _ :=
    .written rfl ((outfit_restores rewards.outfit).keeps_scalar hdepth) <|
      .written rfl ((u8_restores rewards.starsRequired).keeps_scalar rfl) .nil
  exact (h.keeps "LevelRewards" Rewards.plan_sound rfl).congr (by simp)

/-- Rewards with a doubled member are refused. -/
theorem Rewards.shuns : (Wire.decode (α := Rewards)).Shuns naming :=
  Plan.shuns "LevelRewards" (Plan.shuns_of_plain _) Rewards.plan_sound

/-- The names in the fields of a level. -/
def Level.namingInside (field : String) : Naming :=
  if field = "goal" then Goal.naming else if field = "rewards" then Rewards.naming else .plain

/-- The names in a level. -/
def Level.naming : Naming := .record Level.plan.fieldOf? namingInside

/-- A level is read back with any of its names. -/
theorem Level.keeps (level : Level) :
    (Wire.decode (α := Level)).Keeps naming (Wire.encode level) level True := by
  have h : Level.plan.Kept level namingInside _ :=
    .written rfl ((text_restores level.id).keeps_scalar rfl) <|
      .written rfl ((text_restores level.name).keeps_scalar rfl) <|
      .written rfl ((u32_restores level.width).keeps_scalar rfl) <|
      .written rfl ((u32_restores level.height).keeps_scalar rfl) <|
      .written rfl (list_keeps fun tile _ => tile.keeps).plain <|
      .written rfl level.start.keeps <|
      .written rfl level.goal.keeps <|
      .written rfl ((u32_restores level.bestSteps).keeps_scalar rfl) <|
      .written rfl (list_keeps fun s _ => (text_restores s).keeps_scalar rfl).plain <|
      .written rfl (text_set_keeps level.allowedBlocks) <|
      .written rfl ((text_restores level.comic).keeps_scalar rfl) <|
      .written rfl level.rewards.keeps .nil
  exact (h.keeps "LevelDefinition" Level.plan_sound rfl).congr (by simp)

/-- A level with a doubled member, its own or one of its parts, is refused. -/
theorem Level.shuns : (Wire.decode (α := Level)).Shuns naming := by
  have h : Level.plan.Shuns namingInside :=
    ⟨shuns_plain _, shuns_plain _, shuns_plain _, shuns_plain _, shuns_plain _, shuns_plain _,
      Goal.shuns, shuns_plain _, shuns_plain _, shuns_plain _, shuns_plain _, Rewards.shuns,
      trivial⟩
  exact Plan.shuns "LevelDefinition" h Level.plan_sound

/-! ### Catalogs -/

/-- A chapter is read back wherever there is room for it. -/
theorem Chapter.keeps (chapter : Chapter) :
    (Wire.decode (α := Chapter)).Keeps .plain (Wire.encode chapter) chapter True := by
  have h : Chapter.plan.Kept chapter (fun _ => .plain) _ :=
    .written rfl ((text_restores chapter.id).keeps_scalar rfl) <|
      .written rfl ((text_restores chapter.title).keeps_scalar rfl) <|
      .written rfl ((i32_restores chapter.order).keeps_scalar rfl) <|
      .written rfl (list_keeps fun s _ => (text_restores s).keeps_scalar rfl).plain .nil
  exact (h.keeps "ChapterDefinition" Chapter.plan_sound rfl).plain.congr (by simp)

/-- A course is read back wherever there is room for it. -/
theorem Course.keeps (course : Course) :
    (Wire.decode (α := Course)).Keeps .plain (Wire.encode course) course True := by
  have h : Course.plan.Kept course (fun _ => .plain) _ :=
    .written rfl ((text_restores course.id).keeps_scalar rfl) <|
      .written rfl ((text_restores course.name).keeps_scalar rfl) <|
      .written rfl ((text_restores course.description).keeps_scalar rfl) <|
      .written rfl (list_keeps fun s _ => (text_restores s).keeps_scalar rfl).plain .nil
  exact (h.keeps "CourseDefinition" Course.plan_sound rfl).plain.congr (by simp)

/-- The names in the fields of the source of a catalog. -/
def CatalogSource.namingInside (field : String) : Naming :=
  if field = "levels" then .each Level.naming else .plain

/-- The names in the source of a catalog. -/
def CatalogSource.naming : Naming := .record CatalogSource.plan.fieldOf? namingInside

/-- A source is read back with any of its names. -/
theorem CatalogSource.keeps (source : CatalogSource) :
    (Wire.decode (α := CatalogSource)).Keeps naming (Wire.encode source) source True := by
  have h : CatalogSource.plan.Kept source namingInside _ :=
    .written rfl (list_keeps fun course _ => course.keeps).plain <|
      .written rfl (list_keeps fun chapter _ => chapter.keeps).plain <|
      .written rfl (list_keeps fun level _ => level.keeps) .nil
  exact (h.keeps "CatalogSource" CatalogSource.plan_sound rfl).congr (by simp)

/-- A source with a doubled member in one of its parts is refused. -/
theorem CatalogSource.shuns : (Wire.decode (α := CatalogSource)).Shuns naming := by
  have h : CatalogSource.plan.Shuns namingInside :=
    ⟨shuns_plain _, shuns_plain _, list_shuns Level.shuns, trivial⟩
  exact Plan.shuns "CatalogSource" h CatalogSource.plan_sound

end TileCourse
