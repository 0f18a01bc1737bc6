import TileCourse.Storage.Repository
import TileCourse.Text.Blank

/-!
# Profiles in a folder

A folder keeps each profile in a file of its own, which is named after the id. An id that could
lead out of the folder is refused, so different ids have different files and all of them lie
directly in the folder.
-/

namespace TileCourse

/-- A folder of files. -/
structure Folder where
  /-- The texts of the files by their names. -/
  files : Table String

namespace Folder

/-- The folder without files. -/
def empty : Folder := ⟨.empty⟩

/-- Whether two dots follow each other. -/
def hasDoubleDot : List Char → Bool
  | '.' :: '.' :: _ => true
  | _ :: cs => hasDoubleDot cs
  | [] => false

/-- Whether an id can be the name of a file in the folder. -/
def isSafeId (id : String) : Bool :=
  let cs := id.toList
  !cs.isEmpty && !hasDoubleDot cs && !cs.contains '/' && !cs.contains '\\'

/-- The name of the file of an id. -/
def fileName (id : String) : Except RepositoryError String :=
  if isSafeId id then .ok (id ++ ".json") else .error (.invalidId id)

/-- Refuse a name that no file can have. -/
def checkName (name : String) : Except FileError Unit :=
  if name.toList.contains (Char.ofNat 0) then .error .zeroInName
  else if maxNameSize < Text.byteSize name.toList then .error .nameTooLong
  else .ok ()

/-- The text of a file. -/
def read (folder : Folder) (name : String) : Except FileError String :=
  match checkName name with
  | .error error => .error error
  | .ok () => (folder.files.get? name).elim (.error .notFound) .ok

/-- Write the text of a file. -/
def write (folder : Folder) (name text : String) : Except FileError Folder :=
  (checkName name).map fun _ => ⟨folder.files.insert name text⟩

/-- The profile in a file, given what reading the file gave. A file that is not there holds no
profile. -/
def profileOf? : Except FileError String → Except RepositoryError (Option Profile)
  | .error .notFound => .ok none
  | .error error => .error (.file error)
  | .ok text => (Profile.ofText text).map some

/-- The profile of an id. -/
def load (folder : Folder) (id : String) : Except RepositoryError (Option Profile) :=
  match fileName id with
  | .error error => .error error
  | .ok name => profileOf? (folder.read name)

/-- The folder with a profile written into its file. -/
def save (folder : Folder) (profile : Profile) : Except RepositoryError Folder :=
  match fileName profile.id with
  | .error error => .error error
  | .ok name => (folder.write name profile.toText).mapError .file

instance : Repository Folder := ⟨load, save⟩

end Folder

end TileCourse
