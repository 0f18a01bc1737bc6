import TileCourse.Progress.Wire
import TileCourse.Storage.FileError

/-!
# Repositories of profiles

Where profiles are kept between sessions. A repository gives back the profile that was saved last
under an id, or nothing if there is none.
-/

namespace TileCourse

/-- Why a profile cannot be loaded or saved. -/
inductive RepositoryError where
  /-- The file of the profile cannot be read or written. -/
  | file (error : FileError)
  /-- A text is not that of a profile. -/
  | malformed (trouble : Json.Trouble) (source : String)
  /-- An id cannot be the name of a file. -/
  | invalidId (id : String)
  /-- The profile that was found has another id. -/
  | foreign (expected found : String)
  deriving DecidableEq, Repr

namespace RepositoryError

/-- The wording of an error, given that of the trouble with a text. -/
def messageWith (describe : Json.Trouble → List Char → String) : RepositoryError → String
  | file error => "IO error: " ++ error.message
  | malformed trouble source => "profile data is malformed: " ++ describe trouble source.toList
  | invalidId id => "invalid student id: " ++ id
  | foreign expected found => s!"stored profile belongs to `{found}`, expected `{expected}`"

/-- The wording of an error; a trouble with a text is told with its place. -/
def message : RepositoryError → String := messageWith Json.Trouble.fullMessage

/-- The wording of an error without a place. -/
def brief : RepositoryError → String := messageWith fun trouble _ => trouble.message

end RepositoryError

/-- A place where profiles are kept. -/
class Repository (ρ : Type) where
  /-- The profile that is kept under an id. -/
  load : ρ → (id : String) → Except RepositoryError (Option Profile)
  /-- Keep a profile under its id. -/
  save : ρ → Profile → Except RepositoryError ρ

namespace Profile

/-- The text in which a profile is kept. -/
def toText (profile : Profile) : String := (Json.Wire.encode profile).pretty

/-- The profile that is kept in a text. -/
def ofText (source : String) : Except RepositoryError Profile :=
  (Json.decodeText (Json.Wire.decode (α := Profile)) source).mapError (.malformed · source)

end Profile

end TileCourse
