import TileCourse.Progress.Wire
import TileCourse.Proofs.Catalog.Wire
import TileCourse.Proofs.Program.Wire
import TileCourse.Storage.Repository

/-!
# Profiles restored from JSON

A profile is decoded from its own JSON form exactly if every logged instruction is: the steps of a
replay are the only parts of a profile that can be deep, and the only ones whose form may state
something else. A replay lies in five brackets of a profile, the object of its step included.
-/

namespace TileCourse

open Json Decoder

section Plans

attribute [local simp] Plan.Sound Plan.names Plan.Always Field.answersTo Field.required
  Field.defaulted Field.nullable Field.orNamed

/-- Steps are made of their fields, and every field has a name of its own. -/
theorem Step.plan_sound : Step.plan.Sound Step.mk := by simp [Step.plan]

/-- Settings are made of their fields, and every field has a name of its own. -/
theorem Settings.plan_sound : Settings.plan.Sound Settings.mk := by simp [Settings.plan]

/-- Avatars are made of their fields, and every field has a name of its own. -/
theorem Avatar.plan_sound : Avatar.plan.Sound Avatar.mk := by simp [Avatar.plan]

/-- Achievements are made of their fields, and every field has a name of its own. -/
theorem Achievements.plan_sound : Achievements.plan.Sound Achievements.mk := by
  simp [Achievements.plan]

/-- Records are made of their fields, and every field has names of its own. -/
theorem LevelRecord.plan_sound : LevelRecord.plan.Sound LevelRecord.mk := by
  simp [LevelRecord.plan]

/-- Profiles are made of their fields, and every field has a name of its own. -/
theorem Profile.plan_sound : Profile.plan.Sound Profile.mk := by simp [Profile.plan]

end Plans

/-- A step is restored when its instruction is, with a bracket less. -/
theorem Step.restores (step : Step) :
    (Wire.decode (α := Step)).Restores (Wire.encode step) step
      fun room => step.instruction.Fits (room - 1) := by
  have h : Step.plan.Restored step _ :=
    .written rfl (u32_restores step.index) <|
      .written rfl step.instruction.decoder_restores <|
      .written rfl step.position.restores <| .written rfl (u32_restores step.collectibles) .nil
  refine (Plan.record_restores "SimulationStep" h Step.plan_sound rfl).congr fun room => ?_
  have hpos := (Instruction.depth_bounds step.instruction).1
  constructor
  · exact fun h => h.2.2.1
  · intro hfits
    have hroom : 0 < room - 1 := by
      have := hfits.1
      omega
    exact ⟨by omega, trivial, hfits, hroom, trivial, trivial⟩

/-- Settings are restored, if their loudness survives being written. -/
theorem Settings.restores (settings : Settings) (hvolume : settings.volume.Survives) :
    (Wire.decode (α := Settings)).Restores (Wire.encode settings) settings (0 < ·) := by
  have h : Settings.plan.Restored settings _ :=
    .written rfl (single_restores hvolume) <| .written rfl (bool_restores settings.lowMotion) <|
      .written rfl (text_restores settings.language) <|
      .written rfl (bool_restores settings.resettable) .nil
  refine (Plan.record_restores "StudentSettings" h Settings.plan_sound rfl).congr fun room => ?_
  simp

/-- An avatar is restored where there is room for its outfits. -/
theorem Avatar.restores (avatar : Avatar) :
    (Wire.decode (α := Avatar)).Restores (Wire.encode avatar) avatar (1 < ·) := by
  have h : Avatar.plan.Restored avatar _ :=
    .written rfl (text_restores avatar.equipped) <|
      .written rfl (text_set_restores avatar.unlocked) .nil
  refine (Plan.record_restores "Avatar" h Avatar.plan_sound rfl).congr fun room => ?_
  simp only [true_and, and_true]
  omega

/-- Achievements are restored where there is room for their sets. -/
theorem Achievements.restores (achievements : Achievements) :
    (Wire.decode (α := Achievements)).Restores (Wire.encode achievements) achievements
      (1 < ·) := by
  have h : Achievements.plan.Restored achievements _ :=
    .written rfl (text_set_restores achievements.badges) <|
      .written rfl (text_set_restores achievements.compendium) .nil
  refine (Plan.record_restores "Achievements" h Achievements.plan_sound rfl).congr fun room => ?_
  simp only [and_true]
  omega

/-- A difference is restored, and so is its absence. -/
theorem difference_restores (difference : Option Int64) :
    (Decoder.optional (Wire.decode (α := Int64))).Restores
      ((difference.map Wire.encode).getD .null) difference fun _ => True := by
  cases difference with
  | none => exact absent_restores _
  | some n => exact (i64_restores n).optional (by simp [Wire.encode, Json.int])

/-- The instructions of a replay fit into a room, with three brackets less. -/
def LevelRecord.Fits (record : LevelRecord) (room : Nat) : Prop :=
  1 < room ∧ ∀ step ∈ record.replay, step.instruction.Fits (room - 3)

/-- A record is restored where there is room for its replay. -/
theorem LevelRecord.restores (record : LevelRecord) :
    (Wire.decode (α := LevelRecord)).Restores (Wire.encode record) record record.Fits := by
  have h : LevelRecord.plan.Restored record _ :=
    .written rfl (text_restores record.levelId) <| .written rfl (u8_restores record.stars) <|
      .written rfl (u32_restores record.steps) <| .written rfl (u32_restores record.hints) <|
      .written rfl (word_restores "u64" record.seconds) <|
      .written rfl (difference_restores record.difference) <|
      .written rfl (word_restores "u64" record.completedAt) <|
      .written rfl (list_restores fun step _ => step.restores) .nil
  refine (Plan.record_restores "StudentLevelProgress" h LevelRecord.plan_sound rfl).congr
    fun room => ?_
  simp only [true_and, and_true, ← and_assoc]
  exact and_congr (by omega) Iff.rfl

/-- The room that the replays of a profile need, and the profile its records. -/
theorem Profile.plan_restored (profile : Profile) (hvolume : profile.settings.volume.Survives) :
    ∃ fits, Profile.plan.Restored profile fits ∧ ∀ room, fits room ↔
      1 < room ∧ ∀ entry ∈ profile.progress.entries, entry.2.Fits (room - 1) := by
  refine ⟨_, .written rfl (text_restores profile.id) <| .written rfl profile.avatar.restores <|
    .written rfl profile.achievements.restores <|
    .written rfl (profile.settings.restores hvolume) <|
    .written rfl (bool_restores profile.sandboxUnlocked) <|
    .written rfl (table_restores fun entry _ => entry.2.restores) .nil, fun room => ?_⟩
  simp only [true_and, and_true]
  constructor
  · rintro ⟨havatar, hachievements, hsettings, hpos, hentries⟩
    exact ⟨by omega, hentries⟩
  · rintro ⟨hroom, hentries⟩
    exact ⟨by omega, by omega, by omega, by omega, hentries⟩

/-- A profile is restored when its records are, with two brackets less. -/
theorem Profile.restores (profile : Profile) (hvolume : profile.settings.volume.Survives) :
    (Wire.decode (α := Profile)).Restores (Wire.encode profile) profile
      fun room => 2 < room ∧ ∀ entry ∈ profile.progress.entries, entry.2.Fits (room - 2) := by
  obtain ⟨fits, h, hfits⟩ := profile.plan_restored hvolume
  refine (Plan.record_restores "StudentProfile" h Profile.plan_sound rfl).congr fun room => ?_
  rw [hfits, Nat.sub_sub]
  constructor
  · rintro ⟨hroom, hroom', hentries⟩
    exact ⟨by omega, hentries⟩
  · rintro ⟨hroom, hentries⟩
    exact ⟨by omega, by omega, hentries⟩

/-- What is read from the text of a profile has the achievements of the profile. -/
theorem Profile.achievements_of_text {profile found : Profile}
    (hvolume : profile.settings.volume.Survives)
    (h : Profile.ofText profile.toText = .ok found) :
    found.achievements = profile.achievements ∧
      found.sandboxUnlocked = profile.sandboxUnlocked := by
  rw [ofText, toText, map_error_eq_ok_iff, pretty] at h
  obtain ⟨fits, hrestored, -⟩ := profile.plan_restored hvolume
  obtain ⟨hroot, -⟩ := read_render blank_spread (profile.restores hvolume).legible
  obtain ⟨-, -, hachievements, -, hsandbox, -⟩ := Plan.retains_of_decode "StudentProfile" hrestored
    Profile.plan_sound hroot (decode_of_decode_text h)
  exact ⟨hachievements rfl profile.achievements.restores (by decide),
    hsandbox rfl (bool_restores profile.sandboxUnlocked) trivial⟩

/-- A profile is read from its own text exactly if every logged instruction lies in few enough
bodies and is candid about its kinds. -/
theorem Profile.of_text_to_text_iff (profile : Profile)
    (hvolume : profile.settings.volume.Survives) :
    Profile.ofText profile.toText = .ok profile ↔
      ∀ entry ∈ profile.progress.entries, ∀ step ∈ entry.2.replay,
        step.instruction.nesting ≤ 60 ∧ step.instruction.Everywhere Instruction.Candid := by
  rw [ofText, toText, map_error_eq_ok_iff, pretty,
    decode_text_render_iff blank_spread (profile.restores hvolume)]
  simp only [LevelRecord.Fits, Instruction.Fits, textRoom, Nat.reduceSub, Nat.reduceLT, true_and]
  refine forall_congr' fun entry => forall_congr' fun _ => forall_congr' fun step =>
    forall_congr' fun _ => and_congr ?_ Iff.rfl
  exact Instruction.depth_le_iff (n := 60)

end TileCourse
