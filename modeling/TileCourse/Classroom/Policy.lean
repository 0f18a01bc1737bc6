import TileCourse.Progress.Wire
import TileCourse.Simulation.Run
import TileCourse.Storage.FileError
import TileCourse.Text.Blank

/-!
# Policies

What is decided for a whole classroom: the limits of runs where levels set none, whether all levels
are open, and what new students start with. A policy is stated in a file; the environment may
decide once more whether all levels are open.
-/

namespace TileCourse

/-- What is decided for a classroom. -/
structure Policy where
  /-- The budget of a level that sets none. -/
  stepLimit : UInt32
  /-- How many bodies an instruction may lie in. -/
  maxDepth : UInt64
  /-- Whether all levels are open. -/
  unlockAll : Bool
  /-- The outfit of a new student. -/
  starterOutfit : String
  /-- The settings of a new student. -/
  settings : Settings
  deriving DecidableEq, Repr

namespace Policy

/-- The policy unless something else is said. -/
def standard : Policy := ⟨200, 10, false, "starter-cape", .standard⟩

/-- The options of a run under the policy. -/
def options (policy : Policy) : Options := .ofDefaults policy.stepLimit policy.maxDepth

/-! ### The file -/

open Json

/-- The fields of a policy. -/
def plan : Plan Policy (UInt32 → UInt64 → Bool → String → Settings → Policy) :=
  .cons (.defaulted "defaultStepLimit" standard.stepLimit (·.stepLimit)) <|
  .cons { Field.defaulted "maxDepth" standard.maxDepth (·.maxDepth) with
    decode := Decoder.word "usize" } <|
  .cons (.defaulted "unlockAllLevels" standard.unlockAll (·.unlockAll)) <|
  .cons (.defaulted "starterOutfit" standard.starterOutfit (·.starterOutfit)) <|
  .cons (.defaulted "defaultSettings" standard.settings (·.settings)) .nil

instance : Wire Policy := ⟨plan.decoder "EngineConfig" Policy.mk, plan.encoder⟩

end Policy

/-- Why a policy cannot be had from a file. -/
inductive PolicyError where
  | unreadable (path : String) (error : FileError)
  | malformed (trouble : Json.Trouble)
  deriving DecidableEq, Repr

/-- The wording of an error. -/
def PolicyError.message : PolicyError → String
  | .unreadable path error => "failed to read engine config " ++ path ++ ": " ++ error.message
  | .malformed trouble => "failed to parse engine config: " ++ trouble.message

namespace Policy

/-- The policy that a text states. -/
def ofText (source : String) : Except PolicyError Policy :=
  (Json.decodeText (Json.Wire.decode (α := Policy)) source).mapError .malformed

/-- The policy in the file at a path, given what reading the file gave. -/
def ofFile (path : String) : Except FileError String → Except PolicyError Policy
  | .error error => .error (.unreadable path error)
  | .ok source => ofText source

/-! ### The environment -/

/-- The truth value that a word stands for, in any case and with blanks around it. -/
def flag? (word : String) : Option Bool :=
  let word := String.ofList ((Text.trim word.toList).map Text.lower)
  if word ∈ ["1", "true", "yes", "on"] then some true
  else if word ∈ ["0", "false", "no", "off", ""] then some false
  else none

/-- The policy after the environment has decided whether all levels are open. A word that stands
for no truth value decides nothing. -/
def override (policy : Policy) (word : Option String) : Policy :=
  { policy with unlockAll := (word.bind flag?).getD policy.unlockAll }

/-- The policy of a session, given what reading its file gave, if it has one. A file that is of no
use counts as none. -/
def ofSession (path : Option (String × Except FileError String)) (word : Option String) :
    Policy :=
  let policy :=
    match path with
    | some (path, content) => (ofFile path content).toOption.getD standard
    | none => standard
  policy.override word

end Policy

end TileCourse
