import TileCourse.Proofs.Classroom.Earnings
import TileCourse.Proofs.Classroom.Hydration

/-!
# Operations on a classroom

Everything that can be done with a classroom: the requests of students, looking at things, loading
and saving profiles, and putting profiles on the roster. `Classroom.perform_steps` says what one
operation does to the profile of every student. From it follows what holds after any number of
them: what profiles show is never out of date.
-/

namespace TileCourse

/-! ### Operations -/

/-- What a student can look at. -/
inductive Inquiry where
  | run (level : String) (program : Program) (options : Options)
  | sandboxRun (level : String) (program : Program)
  | map
  | levelDetail (level : String)
  | levelPrep (level : String)
  | hint (level : String) (attempts : UInt32) (lastError : Option ErrorCode)
  | profile
  | summary
  | status (level : String)
  | sandboxUnlocked

/-- Whatever can be done with a classroom whose profiles are kept in some kind of repository. -/
inductive Operation (ρ : Type) where
  | request (student : String) (request : Request)
  | inquire (student : String) (inquiry : Inquiry)
  | persist (student : String) (repository : ρ)
  | hydrate (student : String) (repository : ρ)
  /-- Put a profile on the roster. -/
  | insert (profile : Profile)

/-- An operation puts no other profile in the place of one. -/
def Operation.Keeping {ρ : Type} : Operation ρ → Prop
  | .request _ .reset | .hydrate _ _ | .insert _ => False
  | _ => True

namespace Classroom

/-- The classroom after a student has looked at something. -/
def inquire (classroom : Classroom) (student : String) : Inquiry → Classroom
  -- these do not depend on who is asking, so nobody is enrolled
  | .run _ _ _ | .levelPrep _ | .hint _ _ _ => classroom
  | .sandboxRun level program => (classroom.sandboxRun student level program).2
  | .map => (classroom.map student).2
  | .levelDetail level => (classroom.levelDetail student level).2
  | .profile => (classroom.profile student).2
  | .summary => (classroom.summary student).2
  | .status level => (classroom.status student level).2
  | .sandboxUnlocked => (classroom.sandboxUnlocked student).2

variable {ρ : Type} [Repository ρ]

/-- The classroom after an operation, whatever its answer is. -/
def perform (classroom : Classroom) : Operation ρ → Classroom
  | .request student request => classroom.serve student request
  | .inquire student inquiry => classroom.inquire student inquiry
  | .persist student repository => (classroom.persist repository student).2
  | .hydrate student repository => (classroom.hydrate repository student).2
  | .insert profile => classroom.insert profile

/-- The classroom after operations, the first one first. -/
def performAll (classroom : Classroom) (operations : List (Operation ρ)) : Classroom :=
  operations.foldl perform classroom

end Classroom

/-! ### Profiles on a roster -/

namespace Roster

variable {roster : Roster} {student other : String} {profile : Profile}

/-- Enrolling a student leaves the catalog as it is. -/
@[simp] theorem enrol_catalog : (roster.enrol student).catalog = roster.catalog := by
  unfold enrol
  split <;> rfl

/-- Enrolling a student leaves the policy as it is. -/
@[simp] theorem enrol_policy : (roster.enrol student).policy = roster.policy := by
  unfold enrol
  split <;> rfl

/-- Enrolling a student shows in nobody's profile. -/
@[simp] theorem profile_of_enrol : (roster.enrol student).profileOf other =
    roster.profileOf other := by
  unfold enrol
  split
  · rfl
  · rename_i hnew
    rw [profile_of_put]
    split
    · -- whoever is not enrolled has the fresh profile all the same
      rename_i hsame
      have hnone : roster.profiles.get? student = none :=
        Option.not_isSome_iff_eq_none.1 hnew
      rw [hsame, profileOf, hnone]
      rfl
    · rfl

/-- The profile of a student who is enrolled is the one on the roster. -/
theorem profile_of_get (h : roster.profiles.get? student = some profile) :
    roster.profileOf student = profile := by
  rw [profileOf, h]
  rfl

end Roster

/-- What becomes of a profile: it advances, or a settled profile takes its place. -/
inductive Profile.Turns (catalog : Catalog) (keeping : Prop) (before : Profile) :
    (after : Profile) → Prop where
  | advanced (after : Profile) : before.Advances catalog after →
      Turns catalog keeping before after
  | replaced (other : Profile) : ¬keeping → Turns catalog keeping before (other.settle catalog)

namespace Roster

/-- What one operation does to a roster: the catalog and the policy stay as they are, and this
becomes of the profile of every student. -/
structure Steps (keeping : Prop) (before after : Roster) : Prop where
  sameCatalog : after.catalog = before.catalog
  samePolicy : after.policy = before.policy
  profiles : ∀ student,
    (before.profileOf student).Turns before.catalog keeping (after.profileOf student)

variable {roster : Roster} {student : String} {keeping : Prop}

/-- A roster that stays as it is takes a step. -/
theorem steps_refl : roster.Steps keeping roster :=
  ⟨rfl, rfl, fun _ => .advanced _ .unchanged⟩

/-- Enrolling a student is a step that changes no profile. -/
theorem steps_enrol : roster.Steps keeping (roster.enrol student) := by
  refine ⟨enrol_catalog, enrol_policy, fun other => ?_⟩
  rw [profile_of_enrol]
  exact .advanced _ .unchanged

/-- A profile that is put for a student becomes of the student's own; all others stay. -/
theorem steps_put {profile : Profile}
    (h : (roster.profileOf student).Turns roster.catalog keeping profile) :
    roster.Steps keeping (roster.put student profile) := by
  refine ⟨rfl, rfl, fun other => ?_⟩
  rw [profile_of_put]
  split
  · rename_i hsame
    rwa [hsame]
  · exact .advanced _ .unchanged

/-- A change to a profile is a step if the changed profile becomes of the old one. -/
theorem steps_change {α : Type} {f : Profile → Except ProgressError (α × Profile)}
    (hf : ∀ a changed, f (roster.profileOf student) = .ok (a, changed) →
      (roster.profileOf student).Turns roster.catalog keeping (changed.settle roster.catalog)) :
    roster.Steps keeping (roster.change student f).2 := by
  rcases roster.change_cases student f with hsame | ⟨a, changed, hok, hput⟩
  · rw [hsame]
    exact steps_refl
  · rw [hput]
    exact steps_put (hf a changed hok)

/-- A completion is a step. -/
theorem steps_complete (level : String) (completion : Completion) (now : UInt64) :
    roster.Steps keeping (roster.complete student level completion now).2 := by
  rcases roster.complete_cases student level completion now with
    hsame | ⟨found, hlevel, hstars, hput⟩
  · rw [hsame]
    exact steps_refl
  · rw [hput]
    exact steps_put (.advanced _ (.completed level found completion now hlevel hstars))

/-- Putting on an outfit is a step. -/
theorem steps_equip (outfit : String) :
    roster.Steps keeping (roster.equip student outfit).2 := by
  refine steps_change fun avatar changed hok => ?_
  unfold Profile.equip at hok
  split at hok
  · rename_i hunlocked
    cases hok
    exact .advanced _ (.equipped outfit hunlocked)
  · cases hok

/-- Changing the settings is a step. -/
theorem steps_update (patch : SettingsPatch) :
    roster.Steps keeping (roster.updateSettings student patch).2 := by
  refine steps_change fun settings changed hok => ?_
  cases hok
  exact .advanced _ (.updated patch)

/-- Starting afresh is a step that need not keep profiles. -/
theorem steps_reset (h : ¬keeping) : roster.Steps keeping (roster.reset student).2 :=
  steps_change fun _ changed _ => .replaced changed h

/-- Putting a profile on the roster is a step that need not keep profiles. -/
theorem steps_insert (profile : Profile) (h : ¬keeping) :
    roster.Steps keeping (roster.insert profile) :=
  steps_put (.replaced profile h)

end Roster

/-! ### One operation -/

namespace Classroom

variable {ρ : Type} [Repository ρ]

/-- Looking at something enrols a student at most. -/
theorem inquire_cases (classroom : Classroom) (student : String) (inquiry : Inquiry) :
    (classroom.inquire student inquiry).roster = classroom.roster ∨
      (classroom.inquire student inquiry).roster = classroom.roster.enrol student := by
  cases inquiry with
  | run | levelPrep | hint => exact .inl rfl
  | levelDetail level =>
      show (classroom.roster.levelDetail student level).2 = _ ∨
        (classroom.roster.levelDetail student level).2 = _
      unfold Roster.levelDetail
      split
      · exact .inl rfl
      · exact .inr rfl
  | sandboxRun | map | profile | summary | status | sandboxUnlocked => exact .inr rfl

/-- Looking at something is a step. -/
theorem inquire_steps (classroom : Classroom) (student : String) (inquiry : Inquiry)
    (keeping : Prop) :
    classroom.roster.Steps keeping (classroom.inquire student inquiry).roster := by
  rcases classroom.inquire_cases student inquiry with hsame | henrol
  · rw [hsame]
    exact Roster.steps_refl
  · rw [henrol]
    exact Roster.steps_enrol

/-- Receiving a profile is a step that need not keep profiles. -/
theorem receive_steps (classroom : Classroom) (student : String)
    (found : Except RepositoryError (Option Profile)) {keeping : Prop} (h : ¬keeping) :
    classroom.roster.Steps keeping (classroom.receive student found).2.roster := by
  unfold receive
  split
  · exact Roster.steps_refl
  · exact Roster.steps_refl
  · split
    · exact Roster.steps_insert _ h
    · exact Roster.steps_refl

/-- An operation that keeps profiles lets each of them advance; any other may also put a settled
profile in the place of one. -/
theorem perform_steps (classroom : Classroom) (operation : Operation ρ) :
    classroom.roster.Steps operation.Keeping (classroom.perform operation).roster := by
  cases operation with
  | request student request =>
      cases request with
      | run => exact Roster.steps_refl
      | complete level completion now => exact Roster.steps_complete level completion now
      | equip outfit => exact Roster.steps_equip outfit
      | update patch => exact Roster.steps_update patch
      -- starting afresh keeps the settings, but it is another profile
      | reset => exact Roster.steps_reset not_false
  | inquire student inquiry => exact classroom.inquire_steps student inquiry _
  | persist => exact Roster.steps_enrol
  | hydrate student repository => exact classroom.receive_steps student _ not_false
  | insert profile => exact Roster.steps_insert profile not_false

end Classroom

/-! ### Any number of operations -/

namespace Roster

/-- What the profile of every student shows is up to date. -/
structure Settled (catalog : Catalog) (policy : Policy) (roster : Roster) : Prop where
  sameCatalog : roster.catalog = catalog
  samePolicy : roster.policy = policy
  profiles : ∀ student, (roster.profileOf student).settle catalog = roster.profileOf student

variable {catalog : Catalog} {policy : Policy} {before after roster : Roster} {keeping : Prop}

/-- The roster without students is up to date. -/
theorem settled_new (catalog : Catalog) (policy : Policy) :
    (new catalog policy).Settled catalog policy :=
  ⟨rfl, rfl, fun student => Profile.settle_fresh student policy.starterOutfit policy.settings _⟩

/-- A step leaves a roster up to date. -/
theorem Steps.settled (h : before.Steps keeping after) (hbefore : before.Settled catalog policy) :
    after.Settled catalog policy where
  sameCatalog := h.sameCatalog.trans hbefore.sameCatalog
  samePolicy := h.samePolicy.trans hbefore.samePolicy
  profiles student := by
    have hturns := h.profiles student
    rw [hbefore.sameCatalog] at hturns
    generalize after.profileOf student = changed at hturns
    -- what is put on a roster has just been settled, and what is not touched was settled before
    cases hturns with
    | replaced other => exact other.settle_settle catalog
    | advanced _ hadvances =>
        cases hadvances with
        | unchanged => exact hbefore.profiles student
        | completed | equipped | updated => exact Profile.settle_settle _ catalog

/-- A step that keeps profiles makes each of them better. -/
theorem Steps.improves (h : before.Steps keeping after) (hkeeping : keeping) (student : String) :
    (after.profileOf student).Improves (before.profileOf student) := by
  have hturns := h.profiles student
  generalize after.profileOf student = changed at hturns
  cases hturns with
  | advanced _ hadvances => exact hadvances.improves
  | replaced _ hnot => exact absurd hkeeping hnot

/-- In a roster that is up to date, what every profile shows is what its stars have earned. -/
theorem Settled.current {source : CatalogSource} (h : roster.Settled catalog policy)
    (hindexes : catalog.Indexes source) (student : String) :
    (roster.profileOf student).Current source.levels := by
  rw [← h.profiles student]
  exact Profile.current_settle hindexes _

end Roster

namespace Classroom

variable {ρ : Type} [Repository ρ] {source : CatalogSource} {catalog : Catalog} {policy : Policy}

/-- Operations leave a roster up to date. -/
theorem perform_all_settled {classroom : Classroom} (operations : List (Operation ρ))
    (h : classroom.roster.Settled catalog policy) :
    (classroom.performAll operations).roster.Settled catalog policy := by
  induction operations generalizing classroom with
  | nil => exact h
  | cons operation rest ih => exact ih ((classroom.perform_steps operation).settled h)

/-- Operations that keep profiles make each of them better. -/
theorem perform_all_improves {classroom : Classroom} {operations : List (Operation ρ)}
    (hkeeping : ∀ operation ∈ operations, operation.Keeping) (student : String) :
    ((classroom.performAll operations).roster.profileOf student).Improves
      (classroom.roster.profileOf student) := by
  induction operations generalizing classroom with
  | nil => exact .of_same rfl rfl
  | cons operation rest ih =>
      obtain ⟨hfirst, hrest⟩ := List.forall_mem_cons.1 hkeeping
      exact (ih hrest).trans ((classroom.perform_steps operation).improves hfirst student)

/-- Whatever was done with a classroom, its roster is up to date. -/
theorem reached_settled (catalog : Catalog) (policy : Policy) (operations : List (Operation ρ)) :
    ((new catalog policy).performAll operations).roster.Settled catalog policy :=
  perform_all_settled operations (Roster.settled_new catalog policy)

/-! ### What is shown is up to date -/

/-- Whatever was done with a classroom, every profile on its roster shows exactly what its stars
have earned, where every level of the source counts once. -/
theorem stored_current (hcatalog : Catalog.ofSource source = .ok catalog)
    (operations : List (Operation ρ)) {student : String} {profile : Profile}
    (hstored : ((new catalog policy).performAll operations).roster.profiles.get? student =
      some profile) :
    (source.levels.map (·.id)).Nodup ∧ profile.Current source.levels := by
  have hindexes := Catalog.indexes_of_source hcatalog
  refine ⟨hindexes.nodup_ids, ?_⟩
  rw [← Roster.profile_of_get hstored]
  exact (reached_settled catalog policy operations).current hindexes student

/-- A profile with three stars that shows a badge they do not earn, and nothing else. -/
def stale : Profile where
  id := "ada"
  avatar := .starter "cape"
  achievements := ⟨TextSet.empty.insert "traveler", .empty⟩
  settings := .standard
  sandboxUnlocked := false
  progress := Table.empty.insert "meadow" ⟨"meadow", 3, 1, 0, 0, none, 0, []⟩

/-- A stale profile is brought up to date when it is put on the roster; its three stars are far from
more than 32 bits can hold. -/
theorem stored_current_stale : ∃ profile,
    Catalog.ofSource meadowSource = .ok meadowCatalog ∧
    ((new meadowCatalog .standard).performAll
      ([.insert stale] : List (Operation Folder))).roster.profiles.get? "ada" = some profile ∧
    (meadowSource.levels.map (·.id)).Nodup ∧ profile.Current meadowSource.levels ∧
    profile.starSum meadowSource.levels < 2 ^ 32 := by
  have hstored : ((new meadowCatalog .standard).performAll
      ([.insert stale] : List (Operation Folder))).roster.profiles.get? "ada" =
        some (stale.settle meadowCatalog) := rfl
  obtain ⟨hnodup, hcurrent⟩ := stored_current meadow_catalog_eq _ hstored
  exact ⟨_, meadow_catalog_eq, hstored, hnodup, hcurrent, by decide⟩

end Classroom

end TileCourse
