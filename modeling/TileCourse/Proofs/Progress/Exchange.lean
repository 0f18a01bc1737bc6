import TileCourse.Proofs.Progress.Wire
import TileCourse.Proofs.Simulation.ErrorCode

/-!
# Records exchanged as JSON

Catalogs, completions, records of levels and results of runs are read again from their texts, under
whichever of their names the fields are stated: `records_round_trip`. Texts with few enough brackets
lose two things only. A logged instruction may say of a known kind that it is unknown, and a failure
may name a kind that is not spelled as in codes.
-/

namespace TileCourse

open Json Decoder

section Plans

attribute [local simp] Plan.Sound Plan.names Plan.Always Field.answersTo Field.required
  Field.defaulted Field.optional Field.nullable Field.orNamed Field.orShort

/-- What a result tells about the level is made of its fields, which have names of their own. -/
theorem Metadata.plan_sound : Metadata.plan.Sound Metadata.mk := by simp [Metadata.plan]

/-- Results are made of their fields, and every field has a name of its own. -/
theorem Result.plan_sound : Result.plan.Sound Result.mk := by simp [Result.plan]

/-- Completions are made of their fields, and every field has names of its own. -/
theorem Completion.plan_sound : Completion.plan.Sound Completion.mk := by simp [Completion.plan]

end Plans

/-! ### Results of runs -/

/-- The instruction of a step says of no known kind that it is unknown. -/
def Step.Candid (step : Step) : Prop := step.instruction.Everywhere Instruction.Candid

/-- A step is read back, if its instruction is candid. -/
theorem Step.keeps (step : Step) :
    (Wire.decode (α := Step)).Keeps .plain (Wire.encode step) step step.Candid := by
  have h : Step.plan.Kept step (fun _ => .plain) _ :=
    .written rfl ((u32_restores step.index).keeps_scalar rfl) <|
      .written rfl (step.instruction.decoder_restores.keeps fun _ => Iff.rfl) <|
      .written rfl step.position.keeps <|
      .written rfl ((u32_restores step.collectibles).keeps_scalar rfl) .nil
  exact (h.keeps "SimulationStep" Step.plan_sound rfl).plain.congr (by simp [Candid])

/-- A log is read back, if the instructions of its steps are candid. -/
theorem Step.list_keeps (steps : List Step) :
    (Wire.decode (α := List Step)).Keeps .plain (Wire.encode steps) steps
      (∀ step ∈ steps, step.Candid) :=
  (Decoder.list_keeps fun step _ => step.keeps).plain

/-- The names in the fields of what a result tells about the level. -/
def Metadata.namingInside (field : String) : Naming :=
  if field = "goal" then Goal.naming else .plain

/-- The names in what a result tells about the level. -/
def Metadata.naming : Naming := .record Metadata.plan.fieldOf? namingInside

/-- What a result tells about the level is read back with any of its names. -/
theorem Metadata.keeps (metadata : Metadata) :
    (Wire.decode (α := Metadata)).Keeps naming (Wire.encode metadata) metadata True := by
  have h : Metadata.plan.Kept metadata namingInside _ :=
    .written rfl ((u32_restores metadata.bestSteps).keeps_scalar rfl) <|
      .written rfl metadata.goal.keeps .nil
  exact (h.keeps "SimulationMetadata" Metadata.plan_sound rfl).congr (by simp)

/-- A doubled member in what a result tells about the level is refused. -/
theorem Metadata.shuns : (Wire.decode (α := Metadata)).Shuns naming := by
  have h : Metadata.plan.Shuns namingInside := ⟨shuns_plain _, Goal.shuns, trivial⟩
  exact Plan.shuns "SimulationMetadata" h Metadata.plan_sound

/-- The names in the fields of a result. -/
def Result.namingInside (field : String) : Naming :=
  if field = "metadata" then Metadata.naming else .plain

/-- The names in a result. -/
def Result.naming : Naming := .record Result.plan.fieldOf? namingInside

/-- The failure of a result and its log mean what their forms state. -/
def Result.Faithful (result : Result) : Prop :=
  (∀ code ∈ result.errorCode, code.Normal) ∧ ∀ step ∈ result.log, step.Candid

/-- A result is read back with any of its names, if it is faithful. -/
theorem Result.keeps (result : Result) :
    (Wire.decode (α := Result)).Keeps naming (Wire.encode result) result result.Faithful := by
  have h : Result.plan.Kept result namingInside _ :=
    .written rfl ((bool_restores result.success).keeps_scalar rfl) <|
      .written rfl ((u32_restores result.steps).keeps_scalar rfl) <|
      .written rfl ((u8_restores result.stars).keeps_scalar rfl) <|
      .optional (fun _ => rfl) rfl (fun code => code.keeps.optional nofun) <|
      .written rfl ((u32_restores result.remaining).keeps_scalar rfl) <|
      .written rfl result.position.keeps <|
      .written rfl (Step.list_keeps result.log) <|
      .written rfl result.metadata.keeps .nil
  exact (h.keeps "SimulationResult" Result.plan_sound rfl).congr
    (by simp [Faithful, Field.optional])

/-- A result with a doubled member, its own or one of its parts, is refused. -/
theorem Result.shuns : (Wire.decode (α := Result)).Shuns naming := by
  have h : Result.plan.Shuns namingInside :=
    ⟨shuns_plain _, shuns_plain _, shuns_plain _, shuns_plain _, shuns_plain _, shuns_plain _,
      shuns_plain _, Metadata.shuns, trivial⟩
  exact Plan.shuns "SimulationResult" h Result.plan_sound

/-! ### Completions -/

/-- A difference is read back, and so is its absence. -/
theorem difference_keeps (difference : Option Int64) :
    (Decoder.optional (Wire.decode (α := Int64))).Keeps .plain
      ((difference.map Wire.encode).getD .null) difference True := by
  refine (difference_restores difference).keeps_scalar ?_
  cases difference <;> rfl

/-- The names in a completion. -/
def Completion.naming : Naming := .record Completion.plan.fieldOf? fun _ => .plain

/-- The log of a completion means what its form states. -/
def Completion.Faithful (completion : Completion) : Prop :=
  ∀ step ∈ completion.replay, step.Candid

/-- A completion is read back with any of its names, if it is faithful. -/
theorem Completion.keeps (completion : Completion) :
    (Wire.decode (α := Completion)).Keeps naming (Wire.encode completion) completion
      completion.Faithful := by
  have h : Completion.plan.Kept completion (fun _ => .plain) _ :=
    .written rfl ((u8_restores completion.stars).keeps_scalar rfl) <|
      .written rfl ((u32_restores completion.steps).keeps_scalar rfl) <|
      .written rfl ((u32_restores completion.hints).keeps_scalar rfl) <|
      .written rfl ((word_restores "u64" completion.seconds).keeps_scalar rfl) <|
      .written rfl (difference_keeps completion.difference) <|
      .written rfl (Step.list_keeps completion.replay) .nil
  exact (h.keeps "CompleteRequest" Completion.plan_sound rfl).congr (by simp [Faithful])

/-- A completion with a doubled member is refused. -/
theorem Completion.shuns : (Wire.decode (α := Completion)).Shuns naming :=
  Plan.shuns "CompleteRequest" (Plan.shuns_of_plain _) Completion.plan_sound

/-- The names in a record of a level. -/
def LevelRecord.naming : Naming := .record LevelRecord.plan.fieldOf? fun _ => .plain

/-- The log of a record means what its form states. -/
def LevelRecord.Faithful (record : LevelRecord) : Prop := ∀ step ∈ record.replay, step.Candid

/-- A record is read back with any of its names, if it is faithful. -/
theorem LevelRecord.keeps (record : LevelRecord) :
    (Wire.decode (α := LevelRecord)).Keeps naming (Wire.encode record) record
      record.Faithful := by
  have h : LevelRecord.plan.Kept record (fun _ => .plain) _ :=
    .written rfl ((text_restores record.levelId).keeps_scalar rfl) <|
      .written rfl ((u8_restores record.stars).keeps_scalar rfl) <|
      .written rfl ((u32_restores record.steps).keeps_scalar rfl) <|
      .written rfl ((u32_restores record.hints).keeps_scalar rfl) <|
      .written rfl ((word_restores "u64" record.seconds).keeps_scalar rfl) <|
      .written rfl (difference_keeps record.difference) <|
      .written rfl ((word_restores "u64" record.completedAt).keeps_scalar rfl) <|
      .written rfl (Step.list_keeps record.replay) .nil
  exact (h.keeps "StudentLevelProgress" LevelRecord.plan_sound rfl).congr (by simp [Faithful])

/-- A record with a doubled member is refused. -/
theorem LevelRecord.shuns : (Wire.decode (α := LevelRecord)).Shuns naming :=
  Plan.shuns "StudentLevelProgress" (Plan.shuns_of_plain _) LevelRecord.plan_sound

/-- Catalogs, completions, records of levels and results of runs round trip. Each is decoded from
its text, compact or spread over lines and with any of its fields under other names, exactly if its
log and its failure are faithful and its own text has at most 127 arrays and objects open at once. A
text that states a field twice is not decoded. Other names are known for the fields of goals,
rewards, levels, completions and records. -/
theorem records_round_trip :
    (RoundTrips CatalogSource CatalogSource.naming fun _ => True) ∧
      RoundTrips Completion Completion.naming Completion.Faithful ∧
      RoundTrips LevelRecord LevelRecord.naming LevelRecord.Faithful ∧
      RoundTrips Result Result.naming Result.Faithful ∧
      Goal.plan.Knows [("collectibles", "collectiblesRequired"), ("reach", "reachTarget")] ∧
      Rewards.plan.Knows [("outfit", "outfitId"), ("stars", "starsRequired")] ∧
      Level.plan.Knows [("allowedInstructionKinds", "allowedBlocks")] ∧
      Completion.plan.Knows [("hints", "hintsUsed"), ("duration", "durationSeconds")] ∧
      LevelRecord.plan.Knows [("hints", "hintsUsed"), ("duration", "durationSeconds"),
        ("completedAt", "completedAtEpochMs")] :=
  ⟨round_trips_of CatalogSource.keeps CatalogSource.shuns,
    round_trips_of Completion.keeps Completion.shuns,
    round_trips_of LevelRecord.keeps LevelRecord.shuns,
    round_trips_of Result.keeps Result.shuns,
    by decide, by decide, by decide, by decide, by decide⟩

/-- A run that failed at its first step, for it does not know how to jump. -/
def jumpResult : Result where
  success := false
  steps := 1
  stars := 0
  errorCode := some (.unsupported "JUMP")
  remaining := 2
  position := ⟨0, 0, .north⟩
  log := [⟨1, .other "jump", ⟨0, 0, .north⟩, 2⟩]
  metadata := ⟨4, ⟨some 2, none, none⟩⟩

/-- The form of the run, with names for what its goal requires to be collected. -/
def jumpForm (names : List String) : Json :=
  .object [("success", .bool false), ("steps", .nat 1), ("stars", .nat 0),
    ("errorCode", .text "E_UNSUPPORTED_JUMP"), ("remainingCollectibles", .nat 2),
    ("position", Wire.encode jumpResult.position), ("log", Wire.encode jumpResult.log),
    ("metadata", .object [("bestSteps", .nat 4),
      ("goal", .object (names.map fun name => (name, .nat 2)))])]

/-- The run is read with the short name of what its goal requires, and not with both names. -/
theorem records_round_trip_jump : ∀ style ∈ [Style.compact, Style.spread],
    decodeText Wire.decode ((jumpForm ["collectibles"]).render style) = .ok jumpResult ∧
      ∀ result : Result, decodeText Wire.decode
        ((jumpForm ["collectiblesRequired", "collectibles"]).render style) ≠ .ok result := by
  intro style hstyle
  obtain ⟨-, -, -, htrips, -⟩ := records_round_trip
  constructor
  · have hgoal : Respelt Goal.naming (Wire.encode jumpResult.metadata.goal)
        (.object [("collectibles", .nat 2)]) :=
      .object (.cons rfl rfl (.same _ _) (.nil _ _))
    have hmetadata : Respelt Metadata.naming (Wire.encode jumpResult.metadata)
        (.object [("bestSteps", .nat 4), ("goal", .object [("collectibles", .nat 2)])]) :=
      .object (.cons rfl rfl (.same _ _) (.cons rfl rfl hgoal (.nil _ _)))
    have hrespelt : Respelt Result.naming (Wire.encode jumpResult) (jumpForm ["collectibles"]) :=
      .object <| .cons rfl rfl (.same _ _) <| .cons rfl rfl (.same _ _) <|
        .cons rfl rfl (.same _ _) <| .cons rfl rfl (.same _ _) <| .cons rfl rfl (.same _ _) <|
        .cons rfl rfl (.same _ _) <| .cons rfl rfl (.same _ _) <|
        .cons rfl rfl hmetadata (.nil _ _)
    have hnormal : ErrorCode.Normal (.unsupported "JUMP") :=
      ErrorCode.normal_unsupported_iff.2 (by decide)
    have hcandid : Instruction.UnknownKind "jump" := by simp [Instruction.UnknownKind]
    have hfaithful : jumpResult.Faithful := by
      refine ⟨fun code hcode => ?_, fun step hstep => ?_⟩
      · cases hcode
        exact hnormal
      · obtain rfl := List.mem_singleton.1 hstep
        exact hcandid
    refine (htrips.restored jumpResult _ hrespelt style hstyle).2 ⟨hfaithful, ?_⟩
    rw [brackets_render (blank_of_mem hstyle)]
    decide
  · have hgoal : Doubles Goal.naming
        (.object [("collectiblesRequired", .nat 2), ("collectibles", .nat 2)]) :=
      .here [] [] [] _ _ rfl rfl
    have hmetadata : Doubles Metadata.naming (.object [("bestSteps", .nat 4), ("goal",
        .object [("collectiblesRequired", .nat 2), ("collectibles", .nat 2)])]) :=
      .inside (List.mem_cons_of_mem _ List.mem_cons_self) rfl hgoal
    have hdoubles : Doubles Result.naming (jumpForm ["collectiblesRequired", "collectibles"]) :=
      @Doubles.inside _ Result.namingInside _ "metadata" "metadata" _ (by simp) rfl hmetadata
    have hnat (n : UInt32) : (Json.nat n.toNat).Legible := (u32_restores n).legible
    have hposition := (jumpResult.position.keeps _ (.same _ _)).legible
    have hlog := (Step.list_keeps jumpResult.log _ (.same _ _)).legible
    have hlegible : (jumpForm ["collectiblesRequired", "collectibles"]).Legible :=
      ⟨trivial, hnat 1, hnat 0, trivial, hnat 2, hposition, hlog,
        ⟨hnat 4, ⟨hnat 2, hnat 2, trivial⟩, trivial⟩, trivial⟩
    exact htrips.refused _ hlegible hdoubles style hstyle

end TileCourse
