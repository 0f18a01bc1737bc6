import TileCourse.Classroom.Roster
import TileCourse.Level.Hint
import TileCourse.Program.Admission
import TileCourse.Storage.Repository

/-!
# Classrooms

All that a student can ask for: running a program on a level, completing levels, looking at the
map, and loading and saving the profile. A run must be accepted by its level first, and the sandbox
is open only to students who have cleared a level.
-/

namespace TileCourse

/-- Why a request is refused. -/
inductive ClassroomError where
  | progress (error : ProgressError)
  | sandboxLocked
  | rejected (rejection : Rejection)
  | repository (error : RepositoryError)
  deriving DecidableEq, Repr

namespace ClassroomError

/-- The wording of an error, given that of an error of a repository. -/
def messageWith (describe : RepositoryError → String) : ClassroomError → String
  | progress error => error.message
  | sandboxLocked => "sandbox is locked until a level is cleared"
  | rejected rejection => "program rejected: " ++ rejection.message
  | repository error => describe error

/-- The wording of an error. -/
def message : ClassroomError → String := messageWith RepositoryError.message

/-- The wording of an error without the place of a trouble in a text. -/
def brief : ClassroomError → String := messageWith RepositoryError.brief

end ClassroomError

/-- A classroom: its roster, with the catalog and the policy. -/
structure Classroom where
  roster : Roster

namespace Classroom

/-- The classroom without students. -/
def new (catalog : Catalog) (policy : Policy) : Classroom := ⟨.new catalog policy⟩

/-- The outcome of a request to the roster. -/
def ofRoster {α : Type} (outcome : Except ProgressError α × Roster) :
    Except ClassroomError α × Classroom :=
  (outcome.1.mapError .progress, ⟨outcome.2⟩)

/-- The level with an id. -/
def level (classroom : Classroom) (id : String) : Except ClassroomError Level :=
  (classroom.roster.level id).mapError .progress

/-- Run a program on a level with options. -/
def runWith (classroom : Classroom) (level : String) (program : Program) (options : Options) :
    Except ClassroomError Result :=
  match classroom.level level with
  | .error error => .error error
  | .ok found =>
    match found.accept program with
    | .error rejection => .error (.rejected rejection)
    | .ok () => .ok (simulate found options program)

/-- Run a program on a level. -/
def run (classroom : Classroom) (level : String) (program : Program) :
    Except ClassroomError Result :=
  classroom.runWith level program classroom.roster.policy.options

/-- Run a program in the sandbox. -/
def sandboxRun (classroom : Classroom) (student level : String) (program : Program) :
    Except ClassroomError Result × Classroom :=
  let (isOpen, roster) := classroom.roster.sandboxUnlocked student
  (if isOpen then classroom.run level program else .error .sandboxLocked, ⟨roster⟩)

/-- Complete a level at a time. -/
def complete (classroom : Classroom) (student level : String) (completion : Completion)
    (now : UInt64) : Except ClassroomError LevelRecord × Classroom :=
  ofRoster (classroom.roster.complete student level completion now)

/-- The map of a student. -/
def map (classroom : Classroom) (student : String) : MapView × Classroom :=
  let (view, roster) := classroom.roster.map student
  (view, ⟨roster⟩)

/-- A level that is open to a student. -/
def levelDetail (classroom : Classroom) (student level : String) :
    Except ClassroomError LevelDetail × Classroom :=
  ofRoster (classroom.roster.levelDetail student level)

/-- The briefing before a level. -/
def levelPrep (classroom : Classroom) (level : String) : Except ClassroomError LevelPrep :=
  (classroom.level level).map Level.prep

/-- The hint for a level after a number of attempts. -/
def hint (classroom : Classroom) (level : String) (attempts : UInt32)
    (lastError : Option ErrorCode) : Except ClassroomError String :=
  (classroom.level level).map fun found => found.hint attempts lastError

/-- The profile of a student. -/
def profile (classroom : Classroom) (student : String) : Profile × Classroom :=
  let (profile, roster) := classroom.roster.profile student
  (profile, ⟨roster⟩)

/-- The summary of a student's profile. -/
def summary (classroom : Classroom) (student : String) : ProfileSummary × Classroom :=
  let (summary, roster) := classroom.roster.summary student
  (summary, ⟨roster⟩)

/-- The status of a level for a student. -/
def status (classroom : Classroom) (student level : String) : LevelStatus × Classroom :=
  let (status, roster) := classroom.roster.status student level
  (status, ⟨roster⟩)

/-- Whether the sandbox is open to a student. -/
def sandboxUnlocked (classroom : Classroom) (student : String) : Bool × Classroom :=
  let (isOpen, roster) := classroom.roster.sandboxUnlocked student
  (isOpen, ⟨roster⟩)

/-- Put on an outfit. -/
def equip (classroom : Classroom) (student outfit : String) :
    Except ClassroomError Avatar × Classroom :=
  ofRoster (classroom.roster.equip student outfit)

/-- Change the settings of a student. -/
def updateSettings (classroom : Classroom) (student : String) (patch : SettingsPatch) :
    Except ClassroomError Settings × Classroom :=
  ofRoster (classroom.roster.updateSettings student patch)

/-- Start afresh. -/
def reset (classroom : Classroom) (student : String) : Except ClassroomError Unit × Classroom :=
  ofRoster (classroom.roster.reset student)

/-- Put a profile on the roster under its own id. -/
def insert (classroom : Classroom) (profile : Profile) : Classroom :=
  ⟨classroom.roster.insert profile⟩

/-! ### Loading and saving -/

/-- Put the profile on the roster that a repository gave for a student, and say whether there was
one. -/
def receive (classroom : Classroom) (student : String) :
    Except RepositoryError (Option Profile) → Except ClassroomError Bool × Classroom
  | .error error => (.error (.repository error), classroom)
  | .ok none => (.ok false, classroom)
  | .ok (some profile) =>
    if profile.id = student then (.ok true, classroom.insert profile)
    else (.error (.repository (.foreign student profile.id)), classroom)

/-- Load the profile of a student. -/
def hydrate {ρ : Type} [Repository ρ] (classroom : Classroom) (repository : ρ)
    (student : String) : Except ClassroomError Bool × Classroom :=
  classroom.receive student (Repository.load repository student)

/-- Save the profile of a student. -/
def persist {ρ : Type} [Repository ρ] (classroom : Classroom) (repository : ρ)
    (student : String) : Except ClassroomError ρ × Classroom :=
  let (profile, classroom) := classroom.profile student
  ((Repository.save repository profile).mapError .repository, classroom)

end Classroom

end TileCourse
