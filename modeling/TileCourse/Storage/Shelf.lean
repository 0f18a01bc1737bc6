import TileCourse.Storage.FileTree
import TileCourse.Storage.Folder

/-!
# Shelves

A shelf is a folder at a path, in which each profile is kept in a file of its own. It can stand on
any system of files: it asks only that files be read and written at paths, and that its own folder
be made.
-/

namespace TileCourse

/-- A folder is there, and a path in it is the name of a file. -/
instance : FileSystem Folder where
  read := Folder.read
  makeFolder _ := pure ()
  write name text := .atOnce (Folder.write · name text)

/-- A folder at a path, on a system of files. -/
structure Shelf (φ : Type) (base : String) where
  files : φ

namespace Shelf

variable {φ : Type} [FileSystem φ] {base : String}

/-- The path of the file of an id. -/
def pathOf (base id : String) : Except RepositoryError String :=
  (Folder.fileName id).map (Path.join base)

/-- The profile of an id. -/
def load (shelf : Shelf φ base) (id : String) : Except RepositoryError (Option Profile) :=
  match pathOf base id with
  | .error error => .error error
  | .ok path => Folder.profileOf? (FileSystem.read shelf.files path)

/-- What comes of writing a profile into its file, and the shelf afterwards. The folder is made
before that, and it stays if the file cannot be written. -/
def put (shelf : Shelf φ base) (profile : Profile) : Except RepositoryError Unit × Shelf φ base :=
  match pathOf base profile.id with
  | .error error => (.error error, shelf)
  | .ok path =>
    match FileSystem.writeInto base path profile.toText shelf.files with
    | .ok () files => (.ok (), ⟨files⟩)
    | .error error files => (.error (.file error), ⟨files⟩)

/-- The shelf with a profile written into its file. -/
def save (shelf : Shelf φ base) (profile : Profile) : Except RepositoryError (Shelf φ base) :=
  let (outcome, shelf) := shelf.put profile
  outcome.map fun _ => shelf

instance : Repository (Shelf φ base) := ⟨load, save⟩

end Shelf

end TileCourse
