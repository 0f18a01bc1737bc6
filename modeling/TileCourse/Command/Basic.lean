import TileCourse.Catalog.Bundled
import TileCourse.Classroom.Basic
import TileCourse.Command.Usage
import TileCourse.Program.Parser
import TileCourse.Program.Wire
import TileCourse.Report.Source
import TileCourse.Storage.Folder
import TileCourse.Text.Numeral

/-!
# The command

The command works on the bundled catalog: it lists the levels, runs programs, shows the map of a
student and gives hints. Profiles are loaded from a folder and saved to it if one is named.
-/

namespace TileCourse

/-- What the environment of a command says. -/
structure Environment where
  /-- The path of the file with the policy. -/
  policyPath : Option String
  /-- Whether all levels are open, in a word. -/
  unlockAll : Option String

/-- The name of the variable with the path of the policy. -/
def Environment.policyPathName : String := "CODEADVENTURE_CONFIG_PATH"

/-- The name of the variable that says whether all levels are open. -/
def Environment.unlockAllName : String := "CODEADVENTURE_UNLOCK_ALL_LEVELS"

namespace Command

/-! ### Arguments -/

/-- The value of the first option with a name, and the arguments without both. If the option is the
last argument, it has no value. -/
def takeOption (name : String) : List String → Except String (Option String × List String)
  | [] => .ok (none, [])
  | [arg] => if arg = name then .error (name ++ " needs a value") else .ok (none, [arg])
  | arg :: value :: rest =>
    if arg = name then .ok (some value, rest)
    else (takeOption name (value :: rest)).map fun (found, others) => (found, arg :: others)

/-- Whether there is a flag, and the arguments without its first occurrence. -/
def takeFlag (name : String) (args : List String) : Bool × List String :=
  (args.contains name, args.erase name)

/-! ### Parts of scripts -/

/-- Write a value. -/
def sayJson (value : Json) (next : Script) : Script := .say (value.pretty ++ "\n") next

/-- Load the profile of a student from a folder, if one is named. -/
def load (classroom : Classroom) (folder : Option String) (student : String)
    (next : Classroom → Script) : Script :=
  match folder with
  | none => next classroom
  | some folder =>
    let go (loaded : Except RepositoryError (Option Profile)) : Script :=
      match classroom.receive student loaded with
      | (.ok _, classroom) => next classroom
      | (.error error, _) => fail error.message
    match Folder.fileName student with
    | .error error => go (.error error)
    | .ok name => .read (Path.join folder name) fun content => go (Folder.profileOf? content)

/-- Save the profile of a student in a folder, if one is named, and end. -/
def store (classroom : Classroom) (folder : Option String) (student : String) : Script :=
  match folder with
  | none => .stop 0
  | some folder =>
    let profile := (classroom.profile student).1
    let refuse (error : RepositoryError) : Script :=
      fail (ClassroomError.repository error).message
    match Folder.fileName profile.id with
    | .error error => refuse error
    | .ok name =>
      .save folder name profile.toText fun
        | .ok () => .stop 0
        | .error error => refuse (.file error)

/-! ### The commands -/

/-- A text filled up with spaces. -/
def padded (width : Nat) (text : String) : String :=
  text ++ String.ofList (List.replicate (width - text.length) ' ')

/-- The lines about a chapter. -/
def chapterLines (catalog : Catalog) (chapter : Chapter) : String :=
  chapter.id ++ "  " ++ chapter.title ++ "\n" ++
    String.join ((chapter.levelIds.filterMap catalog.level?).map fun level =>
      "    " ++ padded 12 level.id ++ " " ++ level.name ++
        s!" (par {level.bestSteps.toNat} steps)\n")

/-- List the levels. -/
def levels (classroom : Classroom) : Script :=
  let catalog := classroom.roster.catalog
  .say (String.join (catalog.chapters.map (chapterLines catalog))) (.stop 0)

/-- The program in a file, or the report on it. A name with the ending `.json` says that the
program is stated in JSON. -/
def readProgram (file source : String) : Except String Program :=
  let text := source.toList
  if file.endsWith ".json" then
    (Program.parseJson source).mapError fun trouble => (trouble.report text).render file text
  else (Program.parse source).mapError fun error => error.report.render file text

/-- Record a run as the completion of a level. -/
def complete (classroom : Classroom) (folder : Option String) (student level : String)
    (result : Result) : Script :=
  .time fun now =>
    match classroom.complete student level (.ofResult result) now with
    | (.error error, _) => fail error.message
    | (.ok record, classroom) =>
      sayJson (Json.Wire.encode record) (store classroom folder student)

/-- Run the program in a file on a level. -/
def runFile (classroom : Classroom) (folder : Option String) (student : String)
    (completing : Bool) (level file : String) : Script :=
  .read file fun
    | .error error => fail ("cannot read program file '" ++ file ++ "': " ++ error.message)
    | .ok source =>
      match readProgram file source with
      | .error report => .complain report (.stop 1)
      | .ok program =>
        load classroom folder student fun classroom =>
          match classroom.run level program with
          | .error error => fail error.message
          | .ok result =>
            sayJson (Json.Wire.encode result)
              (if completing then complete classroom folder student level result else .stop 0)

/-- Run a program. -/
def run (classroom : Classroom) (args : List String) : Script :=
  match takeOption "--student" args with
  | .error message => fail message
  | .ok (student, args) =>
    match takeOption "--profiles" args with
    | .error message => fail message
    | .ok (folder, args) =>
      let (completing, args) := takeFlag "--complete" args
      match args with
      | [level, file] =>
        runFile classroom folder (student.getD defaultStudent) completing level file
      | _ => showUsage 1

/-- Show the map of a student. -/
def map (classroom : Classroom) (args : List String) : Script :=
  match takeOption "--profiles" args with
  | .error message => fail message
  | .ok (folder, [student]) =>
    load classroom folder student fun classroom =>
      sayJson (Json.Wire.encode (classroom.map student).1) (.stop 0)
  | .ok _ => showUsage 1

/-- Give a hint for a level after a number of attempts, the last of which may have failed. A code
that is not known counts as none. -/
def giveHint (classroom : Classroom) (level attempts : String) (code : Option String) : Script :=
  match Text.numeral attempts.toList with
  | .error fault => fail ("invalid attempt count '" ++ attempts ++ "': " ++ fault.message)
  | .ok count =>
    match classroom.hint level count (code.bind ErrorCode.parse?) with
    | .error error => fail error.message
    | .ok text => .say (text ++ "\n") (.stop 0)

/-- Give a hint. -/
def hint (classroom : Classroom) : List String → Script
  | [level, attempts] => giveHint classroom level attempts none
  | [level, attempts, code] => giveHint classroom level attempts (some code)
  | _ => showUsage 1

/-- Carry out a command in a classroom. -/
def perform (classroom : Classroom) (command : String) (args : List String) : Script :=
  match command with
  | "levels" => levels classroom
  | "run" => run classroom args
  | "map" => map classroom args
  | "hint" => hint classroom args
  | other => .complain ("Unknown command '" ++ other ++ "'\n") (showUsage 1)

/-- The classroom of a session. -/
def classroomOf (environment : Environment)
    (policy : Option (String × Except FileError String)) : Classroom :=
  .new .bundled (.ofSession policy environment.unlockAll)

/-- Carry out the command that arguments state. -/
def script (environment : Environment) : List String → Script
  | [] => showUsage 1
  | command :: args =>
    if command = "--help" ∨ command = "-h" then showUsage 0
    else
      match environment.policyPath with
      | none => perform (classroomOf environment none) command args
      | some path =>
        .read path fun content =>
          perform (classroomOf environment (some (path, content))) command args

end Command

end TileCourse
