import TileCourse.Simulation.Result
import TileCourse.Simulation.Verdict
import TileCourse.Simulation.World

/-!
# Running programs

`simulate` carries out a program on a level. Every instruction that is met costs one step, which
is taken off the budget and logged before the instruction is carried out. The bodies of loops and
branches may be nested only to a limit; that limit is about the structure of the program, and the
budget is about the work. The interpreter is a recursion on the program itself, and a loop is a
recursion on its count.
-/

namespace TileCourse

/-- What can be chosen about a run. -/
structure Options where
  /-- A budget that replaces the level's. -/
  stepLimit : Option UInt32
  /-- Whether the steps are logged. -/
  captureLog : Bool
  /-- The budget of a level that sets none. -/
  defaultStepLimit : UInt32
  /-- How many bodies an instruction may lie in. -/
  maxDepth : UInt64
  deriving DecidableEq, Repr

/-- The options with the given defaults. -/
def Options.ofDefaults (stepLimit : UInt32) (maxDepth : UInt64) : Options :=
  ⟨none, true, stepLimit, maxDepth⟩

/-- What stays the same in the course of a run. -/
structure Setting where
  grid : Grid
  /-- The budget. -/
  stepLimit : UInt32
  maxDepth : UInt64
  captureLog : Bool

/-- What changes in the course of a run. -/
structure Run where
  world : World
  log : Array Step
  deriving DecidableEq, Repr

/-- The end of a run or of a part of it. -/
structure Outcome where
  run : Run
  /-- The failure that stopped the run, if one did. -/
  failure : Option ErrorCode
  deriving DecidableEq, Repr

namespace Run

/-- The run goes on. -/
def goOn (run : Run) : Outcome := ⟨run, none⟩

/-- The run stops with a failure. -/
def stop (run : Run) (code : ErrorCode) : Outcome := ⟨run, some code⟩

/-- The run in another state of the world. -/
def withWorld (run : Run) (world : World) : Run := { run with world }

end Run

namespace Setting

/-- Take a step for an instruction and log it. -/
def charge (setting : Setting) (instruction : Instruction) (run : Run) : Run :=
  let world := { run.world with steps := run.world.steps + 1 }
  let step : Step := ⟨world.steps, instruction, world.position, world.remaining⟩
  ⟨world, if setting.captureLog then run.log.push step else run.log⟩

/-- Go to the tile in front. -/
def move (setting : Setting) (run : Run) : Outcome :=
  let next := run.world.position.ahead
  if setting.grid.isWalkable next then
    (run.withWorld { run.world with position := run.world.position.moveTo next }).goOn
  else run.stop .collide

/-- Turn on the spot. -/
def turn (side : Side) (run : Run) : Run :=
  let facing := run.world.position.facing
  let turned :=
    match side with
    | .left => facing.left
    | .right => facing.right
  run.withWorld { run.world with position := { run.world.position with facing := turned } }

/-- Pick up what lies on the tile. -/
def pickUp (setting : Setting) (run : Run) : Run :=
  let here := run.world.position.point
  match setting.grid.collectibleAt? here with
  | some kind => run.withWorld (run.world.collect here kind).2
  | none => run

/-- Whether a condition holds. -/
def holds (setting : Setting) (run : Run) : Condition → Bool
  | .tileAheadWalkable => setting.grid.isWalkable run.world.position.ahead
  | .collectiblesRemaining => 0 < run.world.remaining

/-- Carry out a body that lies in `depth` bodies, unless those are too many. -/
def enter (setting : Setting) (depth : Nat) (body : Run → Outcome) (run : Run) : Outcome :=
  if setting.maxDepth.toNat < depth then run.stop .loopDepth else body run

/-- Carry out a part of a program a number of times. -/
def iterate (body : Run → Outcome) : Nat → Run → Outcome
  | 0, run => run.goOn
  | n + 1, run =>
    match body run with
    | ⟨run, none⟩ => iterate body n run
    | stopped => stopped

/-- Take the step of an instruction, if the budget allows it, and carry the instruction out. -/
def spend (setting : Setting) (instruction : Instruction) (act : Run → Outcome) (run : Run) :
    Outcome :=
  if setting.stepLimit ≤ run.world.steps then run.stop .stepLimit
  else act (setting.charge instruction run)

mutual

/-- Carry out an instruction that lies in `depth` bodies and whose step has been taken. A body
without instructions takes no step, so repeating it does nothing. -/
def act (setting : Setting) (depth : Nat) : Instruction → Run → Outcome
  | .move, run => setting.move run
  | .turn side, run => (turn side run).goOn
  | .collect, run => (setting.pickUp run).goOn
  | .loop times body, run =>
    if body.isEmpty then run.goOn
    else
      iterate (setting.enter (depth + 1) (performAll setting (depth + 1) body)) times.toNat run
  | .branch none _ _, run => run.goOn
  | .branch (some condition) whenTrue whenFalse, run =>
    if setting.holds run condition then
      setting.enter (depth + 1) (performAll setting (depth + 1) whenTrue) run
    else setting.enter (depth + 1) (performAll setting (depth + 1) whenFalse) run
  | .other kind, run => run.stop (.ofKind kind)

/-- Carry out instructions that lie in `depth` bodies, one after the other. -/
def performAll (setting : Setting) (depth : Nat) : List Instruction → Run → Outcome
  | [], run => run.goOn
  | instruction :: rest, run =>
    match setting.spend instruction (act setting depth instruction) run with
    | ⟨run, none⟩ => performAll setting depth rest run
    | stopped => stopped

end

/-- Carry out a list of instructions that lies in `depth` bodies. -/
def execute (setting : Setting) (depth : Nat) (program : Program) (run : Run) : Outcome :=
  setting.enter depth (setting.performAll depth program) run

end Setting

namespace Options

/-- The budget on a level. -/
def budget (options : Options) (level : Level) : UInt32 :=
  (options.stepLimit.or level.goal.stepLimit).getD options.defaultStepLimit

/-- The setting of a run on a level. -/
def setting (options : Options) (level : Level) : Setting :=
  ⟨.ofLevel level, options.budget level, options.maxDepth, options.captureLog⟩

end Options

/-- The run at its start. -/
def Run.start (level : Level) : Run := ⟨.start level, #[]⟩

/-- What is told about the end of a run on a level. -/
def Outcome.result (outcome : Outcome) (level : Level) : Result :=
  let world := outcome.run.world
  let verdict :=
    level.verdict outcome.failure world.position.point world.remaining world.steps
  { success := verdict.success
    steps := world.steps
    stars := verdict.stars
    errorCode := verdict.errorCode
    remaining := world.remaining
    position := world.position
    log := outcome.run.log.toList
    metadata := ⟨level.bestSteps, level.goal⟩ }

/-- Run a program on a level. -/
def simulate (level : Level) (options : Options) (program : Program) : Result :=
  ((options.setting level).execute 0 program (.start level)).result level

end TileCourse
