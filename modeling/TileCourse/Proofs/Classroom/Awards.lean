import TileCourse.Proofs.Catalog.Lookup
import TileCourse.Proofs.Classroom.Operations

/-!
# Records and outfits

Outfits are gathered one by one as levels are completed, and never counted again. They agree with
the records all the same: a record never loses stars, and starting afresh takes the records and the
outfits away together. `Profile.Rightful` is what every profile keeps as long as none is brought in
from elsewhere, and `Profile.Rightful.complete` is where outfits and records have to be followed
side by side.
-/

namespace TileCourse

/-! ### Awards -/

/-- A record is good enough for the outfit of a level. -/
def Level.Awards (level : Level) (record : LevelRecord) (outfit : String) : Prop :=
  level.rewards.outfit = some outfit ∧ level.rewards.starsRequired ≤ record.stars

namespace Profile

/-- An outfit is the reward of a level whose record is good enough for it. -/
def Wins (profile : Profile) (levels : List Level) (outfit : String) : Prop :=
  ∃ level ∈ levels, ∃ record, profile.progress.get? level.id = some record ∧
    level.Awards record outfit

/-- A profile is the student's own, its records are about levels, and what it may wear is the
outfit to start with and whatever its records have won. -/
structure Rightful (levels : List Level) (starter student : String) (profile : Profile) : Prop where
  own : profile.id = student
  records : ∀ id record, profile.progress.get? id = some record →
    (∃ level ∈ levels, level.id = id) ∧ record.levelId = id ∧ record.stars ≤ 3
  outfits : ∀ outfit, outfit ∈ profile.avatar.unlocked ↔
    outfit = starter ∨ profile.Wins levels outfit
  equipped : profile.avatar.equipped ∈ profile.avatar.unlocked

/-- A reward unlocks the outfit that the record has earned, and takes none away. -/
theorem mem_reward_iff {profile : Profile} {level : Level} {record : LevelRecord}
    {outfit : String} : outfit ∈ (profile.reward level record).avatar.unlocked ↔
      level.Awards record outfit ∨ outfit ∈ profile.avatar.unlocked := by
  unfold reward Level.Awards
  split
  · rename_i own hown
    split
    · rename_i henough
      rw [hown, Option.some.injEq, and_iff_left henough, eq_comm (a := own)]
      exact TextSet.mem_insert
    · rename_i hfew
      rw [or_iff_right fun hawards => hfew hawards.2]
  · rename_i hnone
    simp [hnone]

/-- A reward is not put on. -/
@[simp] theorem reward_equipped (profile : Profile) (level : Level) (record : LevelRecord) :
    (profile.reward level record).avatar.equipped = profile.avatar.equipped := by
  unfold reward
  split
  · split <;> rfl
  · rfl

end Profile

/-! ### Merged records -/

namespace Completion

variable {completion : Completion} {level : Level} {now : UInt64} {before : Option LevelRecord}

/-- A record stays that of its level. -/
theorem merge_level_id (h : ∀ record ∈ before, record.levelId = level.id) :
    (completion.merge level now before).levelId = level.id := by
  cases before with
  | none => rfl
  | some record => exact h record rfl

/-- A record has at most three stars as long as completions have. -/
theorem merge_stars_le (hstars : completion.stars ≤ 3) (h : ∀ record ∈ before, record.stars ≤ 3) :
    (completion.merge level now before).stars ≤ 3 := by
  cases before with
  | none => exact hstars
  | some record =>
      show (completion.updateRecord level now record).stars ≤ 3
      rw [update_record_stars]
      split
      · exact hstars
      · exact h record rfl

end Completion

/-! ### Profiles -/

namespace Profile

variable {source : CatalogSource} {catalog : Catalog} {levels : List Level}
  {starter student : String} {profile : Profile}

/-- A fresh profile is rightful: it may wear the outfit to start with and nothing else. -/
theorem rightful_fresh (levels : List Level) (starter student : String) (settings : Settings) :
    (fresh student starter settings).Rightful levels starter student where
  own := rfl
  records _ _ h := by cases h
  outfits outfit := by
    have hnothing : ¬(fresh student starter settings).Wins levels outfit := by
      rintro ⟨_, _, _, hrecord, _⟩
      cases hrecord
    rw [or_iff_left hnothing]
    show outfit ∈ TextSet.empty.insert starter ↔ outfit = starter
    simp
  equipped := TextSet.mem_insert.2 (.inl rfl)

namespace Rightful

/-- Settling and new settings leave the id, the records and the avatar as they are. -/
theorem of_same {other : Profile} (h : profile.Rightful levels starter student)
    (hid : other.id = profile.id) (havatar : other.avatar = profile.avatar)
    (hprogress : other.progress = profile.progress) : other.Rightful levels starter student where
  own := hid.trans h.own
  records := hprogress ▸ h.records
  outfits outfit := by
    rw [havatar, h.outfits, Wins, Wins, hprogress]
  equipped := havatar ▸ h.equipped

/-- Settling a profile leaves it rightful. -/
theorem settle (h : profile.Rightful levels starter student) (catalog : Catalog) :
    (profile.settle catalog).Rightful levels starter student :=
  h.of_same rfl rfl rfl

/-- A student may put on what is unlocked. -/
theorem equip (h : profile.Rightful levels starter student) {outfit : String}
    (hunlocked : outfit ∈ profile.avatar.unlocked) :
    Rightful levels starter student
      { profile with avatar := { profile.avatar with equipped := outfit } } :=
  ⟨h.own, h.records, h.outfits, hunlocked⟩

/-- A completion wins the outfit of its level or nothing: the stars of a record that has won an
outfit before are still there afterwards. -/
theorem wins_complete (hindexes : catalog.Indexes source) {id : String} {level : Level}
    (hlevel : catalog.level? id = some level) (completion : Completion) (now : UInt64)
    {outfit : String} :
    (profile.complete id level completion now).2.Wins source.levels outfit ↔
      level.Awards (completion.merge level now (profile.progress.get? id)) outfit ∨
        profile.Wins source.levels outfit := by
  obtain ⟨hmem, rfl⟩ := hindexes.level_eq_some_iff.1 hlevel
  have hprogress : ∀ other, (profile.complete level.id level completion now).2.progress.get? other =
      if other = level.id then some (completion.merge level now (profile.progress.get? level.id))
      else profile.progress.get? other :=
    fun other => Table.get?_insert _ _ _ other
  -- the ids of levels differ, so only the level itself has the record that was merged
  have hsame : ∀ other ∈ source.levels, other.id = level.id → other = level := by
    intro other hother hid
    exact Option.some.inj ((hindexes.level_eq_some_iff.2 ⟨hother, hid⟩).symm.trans hlevel)
  constructor
  · rintro ⟨other, hother, record, hrecord, hawards⟩
    rw [hprogress] at hrecord
    split at hrecord
    · rename_i hid
      obtain rfl := hsame other hother hid
      obtain rfl := Option.some.inj hrecord
      exact .inl hawards
    · exact .inr ⟨other, hother, record, hrecord, hawards⟩
  · rintro (hawards | ⟨other, hother, record, hrecord, houtfit, henough⟩)
    · exact ⟨level, hmem, _, by rw [hprogress, if_pos rfl], hawards⟩
    · by_cases hid : other.id = level.id
      · -- the record that has won the outfit is merged, and keeps its stars
        obtain rfl := hsame other hother hid
        refine ⟨other, hother, _, by rw [hprogress, if_pos rfl], houtfit, ?_⟩
        rw [hrecord]
        exact UInt8.le_trans henough (completion.update_record_retains other now record).stars
      · exact ⟨other, hother, record, by rw [hprogress, if_neg hid, hrecord], houtfit, henough⟩

/-- Completing a level leaves a profile rightful, for its reward is won by the new record. -/
theorem complete (h : profile.Rightful source.levels starter student)
    (hindexes : catalog.Indexes source) {id : String} {level : Level}
    (hlevel : catalog.level? id = some level) {completion : Completion}
    (hstars : completion.stars ≤ 3) (now : UInt64) :
    (profile.complete id level completion now).2.Rightful source.levels starter student where
  own := by simpa [Profile.complete] using h.own
  records other record hrecord := by
    obtain ⟨hmem, rfl⟩ := hindexes.level_eq_some_iff.1 hlevel
    have hrecord : (profile.progress.insert level.id _).get? other = some record := hrecord
    rw [Table.get?_insert] at hrecord
    split at hrecord
    · rename_i hid
      obtain rfl := Option.some.inj hrecord
      refine ⟨⟨level, hmem, hid.symm⟩, ?_, ?_⟩
      · rw [hid]
        exact Completion.merge_level_id fun before hbefore => (h.records _ before hbefore).2.1
      · exact Completion.merge_stars_le hstars fun before hbefore =>
          (h.records _ before hbefore).2.2
    · exact h.records other record hrecord
  outfits outfit := by
    rw [wins_complete hindexes hlevel, or_left_comm, ← h.outfits]
    exact mem_reward_iff
  equipped := by
    show (profile.reward level _).avatar.equipped ∈ (profile.reward level _).avatar.unlocked
    rw [reward_equipped]
    exact mem_reward_iff.2 (.inr h.equipped)

end Rightful

/-- A profile that advances stays rightful. -/
theorem Advances.rightful {before after : Profile} (hadvances : before.Advances catalog after)
    (hindexes : catalog.Indexes source) (h : before.Rightful source.levels starter student) :
    after.Rightful source.levels starter student := by
  cases hadvances with
  | unchanged => exact h
  | completed id level completion now hlevel hstars =>
      exact (h.complete hindexes hlevel hstars now).settle catalog
  | equipped outfit hunlocked => exact (h.equip hunlocked).settle catalog
  | updated patch => exact h.of_same rfl rfl rfl

end Profile

/-! ### Rosters -/

namespace Roster

variable {source : CatalogSource} {catalog : Catalog} {policy : Policy}
  {before after roster : Roster} {keeping : Prop}

/-- Every student of a roster has a rightful profile, enrolled or not. -/
structure Rightful (source : CatalogSource) (catalog : Catalog) (policy : Policy)
    (roster : Roster) : Prop where
  sameCatalog : roster.catalog = catalog
  samePolicy : roster.policy = policy
  profiles : ∀ student,
    (roster.profileOf student).Rightful source.levels policy.starterOutfit student

/-- The roster without students is rightful. -/
theorem rightful_new (source : CatalogSource) (catalog : Catalog) (policy : Policy) :
    (new catalog policy).Rightful source catalog policy :=
  ⟨rfl, rfl, fun student => Profile.rightful_fresh _ policy.starterOutfit student policy.settings⟩

/-- An operation that keeps profiles leaves a roster rightful. -/
theorem Steps.rightful (h : before.Steps keeping after) (hkeeping : keeping)
    (hindexes : catalog.Indexes source) (hbefore : before.Rightful source catalog policy) :
    after.Rightful source catalog policy where
  sameCatalog := h.sameCatalog.trans hbefore.sameCatalog
  samePolicy := h.samePolicy.trans hbefore.samePolicy
  profiles student := by
    have hturns := h.profiles student
    rw [hbefore.sameCatalog] at hturns
    generalize after.profileOf student = changed at hturns
    -- a profile in the place of another one could have any outfits, so it must not occur
    cases hturns with
    | advanced _ hadvances => exact hadvances.rightful hindexes (hbefore.profiles student)
    | replaced _ hnot => exact absurd hkeeping hnot

/-- Whoever looks at something is on the roster afterwards. -/
theorem get_of_enrol (roster : Roster) (student : String) :
    (roster.enrol student).profiles.get? student = some (roster.profileOf student) := by
  unfold enrol
  split
  · rename_i hstored
    obtain ⟨profile, hprofile⟩ := Option.isSome_iff_exists.1 hstored
    rw [hprofile, profile_of_get hprofile]
  · rename_i hnew
    have hnone : roster.profiles.get? student = none := Option.not_isSome_iff_eq_none.1 hnew
    rw [put, Table.get?_insert, if_pos rfl, profileOf, hnone]
    rfl

/-- Starting afresh puts a fresh profile on the roster, with the settings there were. -/
theorem reset_eq_put (roster : Roster) (student : String) : (roster.reset student).2 =
    roster.put student ((Profile.fresh student roster.policy.starterOutfit
      (roster.profileOf student).settings).settle roster.catalog) := rfl

/-- Starting afresh leaves a roster rightful, with the outfit to start with. -/
theorem Rightful.reset (h : roster.Rightful source catalog policy) (student : String) :
    (roster.reset student).2.Rightful source catalog policy := by
  rw [reset_eq_put]
  refine ⟨h.sameCatalog, h.samePolicy, fun other => ?_⟩
  rw [profile_of_put]
  split
  · rename_i hother
    rw [hother, ← h.samePolicy]
    exact (Profile.rightful_fresh _ _ student _).settle roster.catalog
  · exact h.profiles other

end Roster

/-! ### Classrooms -/

/-- An operation brings in no profile from elsewhere. -/
def Operation.Inside {ρ : Type} : Operation ρ → Prop
  | .hydrate _ _ | .insert _ => False
  | _ => True

namespace Classroom

variable {ρ : Type} [Repository ρ] {source : CatalogSource} {catalog : Catalog} {policy : Policy}

/-- An operation that brings in no profile leaves a classroom rightful. -/
theorem perform_rightful {classroom : Classroom} (hindexes : catalog.Indexes source)
    (h : classroom.roster.Rightful source catalog policy) {operation : Operation ρ}
    (hinside : operation.Inside) :
    (classroom.perform operation).roster.Rightful source catalog policy := by
  have hsteps := classroom.perform_steps operation
  cases operation with
  | request student request =>
      cases request with
      -- a student who starts afresh gives everything back
      | reset => exact h.reset student
      | run | complete | equip | update => exact hsteps.rightful trivial hindexes h
  | inquire | persist => exact hsteps.rightful trivial hindexes h
  | hydrate | insert => cases hinside

/-- Operations that bring in no profile leave a classroom rightful. -/
theorem perform_all_rightful {classroom : Classroom} (hindexes : catalog.Indexes source)
    (h : classroom.roster.Rightful source catalog policy) {operations : List (Operation ρ)}
    (hinside : ∀ operation ∈ operations, operation.Inside) :
    (classroom.performAll operations).roster.Rightful source catalog policy := by
  induction operations generalizing classroom with
  | nil => exact h
  | cons operation rest ih =>
      obtain ⟨hfirst, hrest⟩ := List.forall_mem_cons.1 hinside
      exact ih (perform_rightful hindexes h hfirst) hrest

/-- Whatever was done with a classroom, every profile on its roster is rightful, unless profiles
were brought in from elsewhere. -/
theorem stored_rightful (hcatalog : Catalog.ofSource source = .ok catalog)
    {operations : List (Operation ρ)} (hinside : ∀ operation ∈ operations, operation.Inside)
    {student : String} {profile : Profile}
    (hstored : ((new catalog policy).performAll operations).roster.profiles.get? student =
      some profile) :
    profile.Rightful source.levels policy.starterOutfit student := by
  have hindexes := Catalog.indexes_of_source hcatalog
  have hstart := Roster.rightful_new source catalog policy
  rw [← Roster.profile_of_get hstored]
  exact (perform_all_rightful hindexes hstart hinside).profiles student

/-- A meadow on a hill, which awards boots for two stars. -/
def hill : Level := { meadow with id := "hill", rewards := ⟨some "boots", 2⟩ }

/-- The hill and the meadow in one chapter. -/
def hillSource : CatalogSource := ⟨[], [⟨"walks", "Walks", 1, ["hill", "meadow"]⟩], [meadow, hill]⟩

/-- The boots are won and put on; then the hill is climbed once more, with one star. -/
def climb : List (Operation Folder) :=
  [.request "ada" (.complete "hill" ⟨2, 4, 0, 30, none, []⟩ 0), .request "ada" (.equip "boots"),
    .request "ada" (.complete "hill" ⟨1, 9, 0, 30, none, []⟩ 1), .inquire "ada" .profile]

/-- After the climb the boots are unlocked, worn, and rightfully so. -/
theorem stored_rightful_climb : ∃ catalog profile,
    Catalog.ofSource hillSource = .ok catalog ∧ (∀ operation ∈ climb, operation.Inside) ∧
    ((new catalog .standard).performAll climb).roster.profiles.get? "ada" = some profile ∧
    profile.Rightful hillSource.levels "starter-cape" "ada" := by
  have hconsistent : hillSource.Consistent :=
    ⟨by decide, by decide, by decide, by decide, by decide⟩
  obtain ⟨catalog, hcatalog⟩ := Catalog.exists_of_consistent hconsistent
  have hinside : ∀ operation ∈ climb, operation.Inside := by
    simp [climb, Operation.Inside]
  have hstored := Roster.get_of_enrol
    ((new catalog .standard).performAll (climb.take 3)).roster "ada"
  exact ⟨catalog, _, hcatalog, hinside, hstored, stored_rightful hcatalog hinside hstored⟩

end Classroom

end TileCourse
