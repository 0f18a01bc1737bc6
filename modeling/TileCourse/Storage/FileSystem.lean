import TileCourse.Storage.FileError
import TileCourse.Text.Table

/-!
# Systems of files

What can be done to files at paths, wherever they are kept. `FileMap` is the simplest such system: a
map from paths to texts.
-/

namespace TileCourse

/-- A change to files. If it fails, what it changed before that stays changed. -/
abbrev FileChange (φ : Type) : Type → Type := EStateM FileError φ

/-- A change that is made as a whole, unless it fails. -/
def FileChange.atOnce {φ : Type} (step : φ → Except FileError φ) : FileChange φ Unit := do
  set (← MonadExcept.ofExcept (step (← get)))

/-- A system of files that are read and written at paths. -/
class FileSystem (φ : Type) where
  /-- The text of the file at a path. -/
  read : φ → (path : String) → Except FileError String
  /-- Make a folder, and those that lead to it, unless they are there. -/
  makeFolder : (path : String) → FileChange φ Unit
  /-- Write the file at a path, in a folder that is there. -/
  write : (path text : String) → FileChange φ Unit

/-- Write the file at a path, in a folder that is made if it is not there. -/
def FileSystem.writeInto {φ : Type} [FileSystem φ] (folder path text : String) :
    FileChange φ Unit := do
  makeFolder folder
  write path text

/-- The texts of files by their paths. There may be a file at any path, and no folder is needed for
it. -/
structure FileMap where
  texts : Table String

instance : FileSystem FileMap where
  read files path := (files.texts.get? path).elim (.error .notFound) .ok
  makeFolder _ := pure ()
  write path text := modify fun files => ⟨files.texts.insert path text⟩

end TileCourse
