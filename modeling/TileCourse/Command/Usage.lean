import TileCourse.Command.Script

/-!
# How the command is used
-/

namespace TileCourse.Command

/-- The student for whom a program is run unless one is named. -/
def defaultStudent : String := "local"

/-- The lines that tell how the command is used. -/
def usageLines : List String := [
  "Usage:",
  "  codeadventure levels                                  List the bundled levels",
  "  codeadventure run <level> <file> [options]            Run a program on a level",
  "  codeadventure map <student> [--profiles DIR]          Show a student's level map",
  "  codeadventure hint <level> <attempts> [ERROR_CODE]    Show the next hint",
  "  codeadventure --help                                  Show this help message",
  "",
  "Run options:",
  "  --student ID      Student to run as (default: " ++ defaultStudent ++ ")",
  "  --profiles DIR    Load and save student profiles in DIR",
  "  --complete        Record the run as a level completion",
  "",
  "Programs ending in .json are read as instruction JSON, anything else as text:",
  "  repeat 4",
  "      move",
  "",
  "Environment:",
  "  CODEADVENTURE_CONFIG_PATH          Engine config JSON file",
  "  CODEADVENTURE_UNLOCK_ALL_LEVELS    Report every level as unlocked",
  "  RUST_LOG                           Log filter, e.g. codeadventure_engine=debug"]

/-- How the command is used. -/
def usage : String := String.join (usageLines.map fun line => line ++ "\n")

/-- End with the usage. -/
def showUsage (code : UInt8) : Script := .complain usage (.stop code)

/-- End with an error. -/
def fail (message : String) : Script := .complain ("Error: " ++ message ++ "\n") (.stop 1)

end TileCourse.Command
