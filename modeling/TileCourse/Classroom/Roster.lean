import TileCourse.Classroom.Policy
import TileCourse.Progress.Merge
import TileCourse.Progress.Totals
import TileCourse.Progress.View

/-!
# The roster of a classroom

The profiles of all students. A student is enrolled with a fresh profile by whoever asks first. A
change is made to a copy of the profile; the copy replaces the profile, with everything that
follows from its records made anew, only if the change succeeds.
-/

namespace TileCourse

/-- Why something cannot be done for a student. -/
inductive ProgressError where
  | levelNotFound (level : String)
  | levelLocked (level : String)
  | outfitLocked (outfit : String)
  /-- More stars are reported than there are. -/
  | tooManyStars (stars : UInt8)
  deriving DecidableEq, Repr

/-- The wording of an error. -/
def ProgressError.message : ProgressError → String
  | .levelNotFound level => s!"level `{level}` does not exist"
  | .levelLocked level => s!"level `{level}` is locked"
  | .outfitLocked outfit => s!"outfit `{outfit}` has not been unlocked"
  | .tooManyStars stars => s!"invalid completion: stars must be between 0 and 3, got {stars.toNat}"

/-- The students of a classroom. -/
structure Roster where
  catalog : Catalog
  policy : Policy
  /-- The profiles of the students who are enrolled. -/
  profiles : Table Profile

namespace Roster

/-- The roster without students. -/
def new (catalog : Catalog) (policy : Policy) : Roster := ⟨catalog, policy, .empty⟩

/-- The profile of a student who is not enrolled yet. -/
def freshProfile (roster : Roster) (student : String) : Profile :=
  .fresh student roster.policy.starterOutfit roster.policy.settings

/-- The profile of a student, enrolled or not. -/
def profileOf (roster : Roster) (student : String) : Profile :=
  (roster.profiles.get? student).getD (roster.freshProfile student)

/-- The roster with a profile as it is. -/
def put (roster : Roster) (student : String) (profile : Profile) : Roster :=
  { roster with profiles := roster.profiles.insert student profile }

/-- The roster in which a student is enrolled. -/
def enrol (roster : Roster) (student : String) : Roster :=
  if roster.profiles.contains student then roster
  else roster.put student (roster.freshProfile student)

/-- Put a profile on the roster under its own id. -/
def insert (roster : Roster) (profile : Profile) : Roster :=
  roster.put profile.id (profile.settle roster.catalog)

/-- Change the profile of a student. -/
def change {α : Type} (roster : Roster) (student : String)
    (f : Profile → Except ProgressError (α × Profile)) : Except ProgressError α × Roster :=
  match f (roster.profileOf student) with
  | .error error => (.error error, roster)
  | .ok (a, profile) => (.ok a, roster.put student (profile.settle roster.catalog))

/-- The level with an id. -/
def level (roster : Roster) (id : String) : Except ProgressError Level :=
  (roster.catalog.level? id).elim (.error (.levelNotFound id)) .ok

end Roster

namespace Profile

/-- The profile with the outfit of a level, if a record of the level has earned it. -/
def reward (profile : Profile) (level : Level) (record : LevelRecord) : Profile :=
  match level.rewards.outfit with
  | some outfit =>
    if level.rewards.starsRequired ≤ record.stars then
      { profile with
        avatar := { profile.avatar with unlocked := profile.avatar.unlocked.insert outfit } }
    else profile
  | none => profile

/-- The record after a completion of a level, and the profile with it. -/
def complete (profile : Profile) (id : String) (level : Level) (completion : Completion)
    (now : UInt64) : LevelRecord × Profile :=
  let record := completion.merge level now (profile.progress.get? id)
  (record,
    { profile.reward level record with progress := profile.progress.insert id record })

/-- The profile in another outfit, which must be unlocked. -/
def equip (profile : Profile) (outfit : String) : Except ProgressError (Avatar × Profile) :=
  if outfit ∈ profile.avatar.unlocked then
    let avatar := { profile.avatar with equipped := outfit }
    .ok (avatar, { profile with avatar })
  else .error (.outfitLocked outfit)

end Profile

namespace Roster

/-- Complete a level at a time. -/
def complete (roster : Roster) (student level : String) (completion : Completion)
    (now : UInt64) : Except ProgressError LevelRecord × Roster :=
  match roster.level level with
  | .error error => (.error error, roster)
  | .ok found =>
    if 3 < completion.stars then (.error (.tooManyStars completion.stars), roster)
    else roster.change student fun profile => .ok (profile.complete level found completion now)

/-- Put on an outfit. -/
def equip (roster : Roster) (student outfit : String) : Except ProgressError Avatar × Roster :=
  roster.change student fun profile => profile.equip outfit

/-- Change the settings of a student. -/
def updateSettings (roster : Roster) (student : String) (patch : SettingsPatch) :
    Except ProgressError Settings × Roster :=
  roster.change student fun profile =>
    let settings := profile.settings.apply patch
    .ok (settings, { profile with settings })

/-- Start afresh; only the settings stay. -/
def reset (roster : Roster) (student : String) : Except ProgressError Unit × Roster :=
  roster.change student fun profile =>
    .ok ((), { roster.freshProfile student with settings := profile.settings })

/-! ### Reading

Each of these enrols the student. -/

/-- The profile of a student. -/
def profile (roster : Roster) (student : String) : Profile × Roster :=
  (roster.profileOf student, roster.enrol student)

/-- The map of a student. -/
def map (roster : Roster) (student : String) : MapView × Roster :=
  ((roster.profileOf student).map roster.catalog roster.policy.unlockAll, roster.enrol student)

/-- The status of a level for a student. -/
def status (roster : Roster) (student level : String) : LevelStatus × Roster :=
  ((roster.profileOf student).status roster.catalog roster.policy.unlockAll level,
    roster.enrol student)

/-- A level that is open to a student. -/
def levelDetail (roster : Roster) (student level : String) :
    Except ProgressError LevelDetail × Roster :=
  match roster.level level with
  | .error error => (.error error, roster)
  | .ok found =>
    let profile := roster.profileOf student
    let status := profile.status roster.catalog roster.policy.unlockAll level
    let chapter := ((roster.catalog.chapterOf? level).map (·.id)).getD ""
    let answer : Except ProgressError LevelDetail :=
      if status = .locked then .error (.levelLocked level)
      else .ok ⟨found, chapter, status, profile.progress.get? level⟩
    (answer, roster.enrol student)

/-- The summary of a student's profile. -/
def summary (roster : Roster) (student : String) : ProfileSummary × Roster :=
  ((roster.profileOf student).summary, roster.enrol student)

/-- Whether the sandbox is open to a student. -/
def sandboxUnlocked (roster : Roster) (student : String) : Bool × Roster :=
  ((roster.profileOf student).sandboxUnlocked, roster.enrol student)

end Roster

end TileCourse
