/-!
# Failures of file access

Why a file cannot be read or written, and how that is told.
-/

namespace TileCourse

/-- Why a file cannot be read or written. -/
inductive FileError where
  | notFound
  /-- A file stands where a folder is needed. -/
  | notFolder
  /-- A folder stands where a file is needed. -/
  | isFolder
  /-- A folder cannot be made because a file has its name. -/
  | alreadyThere
  | nameTooLong
  /-- The name contains the character with code zero. -/
  | zeroInName
  /-- Any other reason. -/
  | other (text : String)
  deriving DecidableEq, Repr

/-- The wording of a failure. -/
def FileError.message : FileError → String
  | .notFound => "No such file or directory (os error 2)"
  | .notFolder => "Not a directory (os error 20)"
  | .isFolder => "Is a directory (os error 21)"
  | .alreadyThere => "File exists (os error 17)"
  | .nameTooLong => "File name too long (os error 36)"
  | .zeroInName => "file name contained an unexpected NUL byte"
  | .other text => text

/-- The greatest number of bytes of a name. -/
def maxNameSize : Nat := 255

/-- The least number of bytes that a path cannot have. -/
def pathSizeBound : Nat := 4096

end TileCourse
