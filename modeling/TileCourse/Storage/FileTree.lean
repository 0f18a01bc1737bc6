import TileCourse.Storage.FileSystem
import TileCourse.Storage.Path

/-!
# Trees of files

A tree of folders and files in memory, with a folder in which one works. Paths are followed name by
name, so the failures are those of the first name that does not lead on.
-/

namespace TileCourse

/-- What stands at a place of a tree. -/
inductive FileEntry where
  | file (text : String)
  | folder
  deriving DecidableEq, Repr

/-- A tree of folders and files. -/
structure FileTree where
  /-- What stands at each place; a place is given by its names, separated by slashes. -/
  entries : Table FileEntry
  /-- The names that lead to the folder in which one works. -/
  work : List String

namespace FileTree

/-- The key of a place. -/
def key (place : List String) : String := "/".intercalate place

/-- What stands at a place. The root is a folder. -/
def entry? (tree : FileTree) : List String → Option FileEntry
  | [] => some .folder
  | place => tree.entries.get? (key place)

/-- The tree with something else at a place. -/
def put (tree : FileTree) (place : List String) (entry : FileEntry) : FileTree :=
  { tree with entries := tree.entries.insert (key place) entry }

/-- The place to which a name leads, and what stands there, if anything does. -/
def look (tree : FileTree) (here : List String) (name : String) :
    Except FileError (List String × Option FileEntry) :=
  match tree.entry? here with
  | none => .error .notFound
  | some (.file _) => .error .notFolder
  | some .folder =>
    if name = "" ∨ name = "." then .ok (here, some .folder)
    else if name = ".." then .ok (here.dropLast, some .folder)
    else if maxNameSize < Text.byteSize name.toList then .error .nameTooLong
    else .ok (here ++ [name], tree.entry? (here ++ [name]))

/-- The place to which names lead. -/
def walk (tree : FileTree) (here : List String) : List String → Except FileError (List String)
  | [] => .ok here
  | name :: rest => do
    let (there, found) ← tree.look here name
    match found with
    | some _ => tree.walk there rest
    | none => .error .notFound

/-- The place from which a path is followed. -/
def origin (tree : FileTree) (path : String) : List String :=
  if Path.fromRoot path then [] else tree.work

/-- The place to which a path leads. -/
def find (tree : FileTree) (path : String) : Except FileError (List String) := do
  Path.check path
  tree.walk (tree.origin path) (Path.names path)

/-- The text of the file at a path. -/
def read (tree : FileTree) (path : String) : Except FileError String := do
  let place ← tree.find path
  match tree.entry? place with
  | some (.file text) => .ok text
  | some .folder => .error .isFolder
  | none => .error .notFound

/-- Whether a path leads to a folder. -/
def isFolder (tree : FileTree) (path : String) : Bool :=
  match tree.find path with
  | .ok place => tree.entry? place == some .folder
  | .error _ => false

/-- Make a folder in a folder that is there. Slashes at the end of its path do not count, but a dot
there stands for a folder that must be there before. -/
def makeFolder (tree : FileTree) (path : String) : Except FileError FileTree := do
  Path.check path
  match (Path.names path).reverse.dropWhile (· == "") with
  | [] => .error .alreadyThere
  | last :: above =>
    let place ← tree.walk (tree.origin path) above.reverse
    let (there, found) ← tree.look place last
    match found with
    | some _ => .error .alreadyThere
    | none => .ok (tree.put there .folder)

/-- Make a folder unless it is there. -/
def ensureFolder (tree : FileTree) (path : String) : Except FileError FileTree :=
  match tree.makeFolder path with
  | .error .alreadyThere => if tree.isFolder path then .ok tree else .error .alreadyThere
  | outcome => outcome

/-- Make the first of some folders; the others are made before it if it cannot do without. Those
that were made stay, even if another cannot be made. -/
def makeFolders : List String → FileChange FileTree Unit
  | [] => pure ()
  | path :: above => do
    match (← get).ensureFolder path with
    | .ok tree => set tree
    | .error .notFound =>
      makeFolders above
      .atOnce (ensureFolder · path)
    | .error error => throw error

/-- Write the file at a path, in a folder that is there. -/
def writeFile (tree : FileTree) (path text : String) : Except FileError FileTree := do
  Path.check path
  let place ← tree.walk (tree.origin path) (Path.names path).dropLast
  let (there, found) ← tree.look place ((Path.names path).getLast?.getD "")
  match found with
  | some .folder => .error .isFolder
  | _ => .ok (tree.put there (.file text))

instance : FileSystem FileTree where
  read := read
  makeFolder path := makeFolders (Path.ancestry path)
  write path text := .atOnce (writeFile · path text)

/-- Write a file into a folder, which is made if it is not there. -/
def write (folder name text : String) : FileChange FileTree Unit :=
  FileSystem.writeInto folder (Path.join folder name) text

/-- The tree with one more file in or below the folder in which one works. -/
def addFile (tree : FileTree) (path text : String) : FileTree :=
  let names := Path.names path
  match write ("/".intercalate names.dropLast) (names.getLast?.getD "") text tree with
  | .ok () tree => tree
  | .error _ tree => tree

/-- The tree of some folders at the root, in one of which one works. -/
def ofFolders (folders : List String) (work : String) : FileTree :=
  ⟨.ofList ((work :: folders).map fun name => (name, .folder)), [work]⟩

/-- The files in the folder with a name, where one works. -/
def filesIn (tree : FileTree) (folder : String) : Table String :=
  let here := tree.work ++ [folder]
  .ofList <| tree.entries.entries.filterMap fun (place, entry) =>
    match entry with
    | .folder => none
    | .file text =>
      match (Path.names place).reverse with
      | name :: above => if above.reverse = here then some (name, text) else none
      | [] => none

end FileTree

end TileCourse
