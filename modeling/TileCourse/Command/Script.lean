import TileCourse.Storage.FileTree

/-!
# Scripts

What a command does to the world, as a value: the texts that it writes, the files that it reads and
saves, and the code with which it ends. A script asks and goes on with the answer, so one script
can be carried out on a tree of files in memory as well as on a real one.
-/

namespace TileCourse

/-- What a command does. -/
inductive Script where
  /-- End with a code. -/
  | stop (code : UInt8)
  /-- Write a text. -/
  | say (text : String) (next : Script)
  /-- Write a text about a problem. -/
  | complain (text : String) (next : Script)
  /-- Read the file at a path. -/
  | read (path : String) (next : Except FileError String → Script)
  /-- Save a file in a folder, which is made if it is not there. -/
  | save (folder name text : String) (next : Except FileError Unit → Script)
  /-- Ask for the time in milliseconds. -/
  | time (next : UInt64 → Script)

/-- The end of a command. -/
structure Ending where
  code : UInt8
  /-- All that was written. -/
  said : String
  /-- All that was written about problems. -/
  complained : String
  files : FileTree

namespace Script

/-- Carry out a script on a tree of files at a time. -/
def runIn (now : UInt64) (files : FileTree) : Script → Ending
  | stop code => ⟨code, "", "", files⟩
  | say text next =>
    let ending := runIn now files next
    { ending with said := text ++ ending.said }
  | complain text next =>
    let ending := runIn now files next
    { ending with complained := text ++ ending.complained }
  | read path next => runIn now files (next (files.read path))
  | save folder name text next =>
    match FileTree.write folder name text files with
    | .ok () files => runIn now files (next (.ok ()))
    | .error error files => runIn now files (next (.error error))
  | time next => runIn now files (next now)

end Script

end TileCourse
