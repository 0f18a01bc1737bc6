import Std.Time.DateTime.Timestamp
import TileCourse.Command.Basic

/-!
# The program

The outer layer: it carries out the script of a command on the files of the machine.
-/

namespace TileCourse

/-- The failure that the machine reports. -/
def FileError.ofIO : IO.Error → FileError
  | .noFileOrDirectory .. => .notFound
  | .inappropriateType _ 21 _ => .isFolder
  | .inappropriateType .. => .notFolder
  | .alreadyExists .. => .alreadyThere
  | .invalidArgument _ 36 _ => .nameTooLong
  | error => .other (toString error)

/-- Make a folder unless it is there. -/
def ensureFolder (path : String) : IO Unit := do
  try
    IO.FS.createDir path
  catch
    | .alreadyExists .. => IO.FS.createDirAll path
    | error => throw error

/-- Make the first of some folders; the others are made before it if it cannot do without. -/
def makeFolders : List String → IO Unit
  | [] => pure ()
  | path :: above => do
    try
      ensureFolder path
    catch
      | .noFileOrDirectory .. =>
        makeFolders above
        ensureFolder path
      | error => throw error

/-- Carry out a script. -/
def Script.perform : Script → IO UInt32
  | stop code => return code.toUInt32
  | say text next => do
    (← IO.getStdout).putStr text
    next.perform
  | complain text next => do
    (← IO.getStderr).putStr text
    next.perform
  | read path next => do
    let content ← (IO.FS.readFile path).toBaseIO
    (next (content.mapError FileError.ofIO)).perform
  | save folder name text next => do
    let action : IO Unit := do
      makeFolders (Path.ancestry folder)
      IO.FS.writeFile (Path.join folder name) text
    let outcome ← action.toBaseIO
    (next (outcome.mapError FileError.ofIO)).perform
  | time next => do
    let now ← Std.Time.Timestamp.now
    (next (UInt64.ofNat now.toMillisecondsSinceUnixEpoch.toInt.toNat)).perform

end TileCourse

/-- Carry out the command that the arguments state. -/
def main (args : List String) : IO UInt32 := do
  let environment : TileCourse.Environment :=
    { policyPath := ← IO.getEnv TileCourse.Environment.policyPathName
      unlockAll := ← IO.getEnv TileCourse.Environment.unlockAllName }
  (TileCourse.Command.script environment args).perform
