import TileCourse.Storage.FileError
import TileCourse.Text.Blank

/-!
# Paths

A path is a text of names with slashes between them. An empty name and a single dot stay where one
is, so many paths lead to one place.
-/

namespace TileCourse.Path

/-- The names of a path, among them those that stay. -/
def names (path : String) : List String := (path.toList.splitOn '/').map String.ofList

/-- Whether a path starts at the root. -/
def fromRoot (path : String) : Bool := path.toList.head? = some '/'

/-- The names of a path that lead on. -/
def steps (path : String) : List String :=
  (names path).filter fun name => name != "" && name != "."

/-- Refuse a path that cannot be followed at all. -/
def check (path : String) : Except FileError Unit :=
  if path.toList.contains (Char.ofNat 0) then .error .zeroInName
  else if path.toList.isEmpty then .error .notFound
  else if pathSizeBound ≤ Text.byteSize path.toList then .error .nameTooLong
  else .ok ()

/-- The path of a name in a folder. -/
def join (folder name : String) : String :=
  if folder = "" ∨ folder.toList.getLast? = some '/' then folder ++ name
  else folder ++ "/" ++ name

/-- The beginnings of a list of names that is given with the last name first: all of the list but
its empty beginning, the longest one first. -/
def beginnings : List String → List (List String)
  | [] => []
  | last :: above => (last :: above).reverse :: beginnings above

/-- The folders to make for a folder to be at a path: the path as it stands, then those that lead
to it, each without the last step of the one before. The empty path needs none. -/
def ancestry (path : String) : List String :=
  if path = "" then []
  else
    path :: (beginnings (steps path).reverse.tail).map fun steps =>
      (if fromRoot path then "/" else "") ++ "/".intercalate steps

end TileCourse.Path
