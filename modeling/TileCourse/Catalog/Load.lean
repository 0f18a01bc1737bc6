import TileCourse.Catalog.Index
import TileCourse.Storage.FileError

/-!
# Catalogs in files

A catalog is had from the text of its source. Reading the file, reading the text and making the
catalog may each fail.
-/

namespace TileCourse

/-- Why a catalog cannot be had from a file. -/
inductive CatalogLoadError where
  | unreadable (path : String) (error : FileError)
  | malformed (trouble : Json.Trouble)
  | inconsistent (error : CatalogError)
  deriving DecidableEq, Repr

/-- The wording of an error. -/
def CatalogLoadError.message : CatalogLoadError → String
  | .unreadable path error => "failed to read catalog " ++ path ++ ": " ++ error.message
  | .malformed trouble => "failed to parse catalog: " ++ trouble.message
  | .inconsistent error => error.message

namespace Catalog

/-- The catalog whose source a text states. -/
def ofText (source : String) : Except CatalogLoadError Catalog :=
  match Json.decodeText (Json.Wire.decode (α := CatalogSource)) source with
  | .error trouble => .error (.malformed trouble)
  | .ok stated => (ofSource stated).mapError .inconsistent

/-- The catalog in the file at a path, given what reading the file gave. -/
def ofFile (path : String) : Except FileError String → Except CatalogLoadError Catalog
  | .error error => .error (.unreadable path error)
  | .ok source => ofText source

end Catalog

end TileCourse
