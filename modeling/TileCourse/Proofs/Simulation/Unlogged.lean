import TileCourse.Proofs.Simulation.Leads

/-!
# Runs without a log

The log is written and never read. A run that is not logged goes through the same states, so
`simulate_unlogged` takes the log out of the result and changes nothing else.
-/

namespace TileCourse

/-- The run without its log. -/
def Run.forget (run : Run) : Run := ⟨run.world, #[]⟩

/-- The outcome without its log. -/
def Outcome.forget (outcome : Outcome) : Outcome := ⟨outcome.run.forget, outcome.failure⟩

/-- The same setting in which nothing is logged. -/
def Setting.unlogged (setting : Setting) : Setting := { setting with captureLog := false }

namespace Setting

/-- What an instruction does, apart from the log, does not depend on the log. -/
theorem unlogged_matches (setting : Setting) : Matches Run.forget setting.unlogged setting where
  maxDepth := rfl
  stepLimit := rfl
  steps _ := rfl
  charge _ _ := rfl
  move run := by
    rw [move_eq, move_eq]
    by_cases hwalk : setting.grid.isWalkable run.world.position.ahead <;>
      simp [affect, move, obstacle?, unlogged, Run.forget, Outcome.mapRun, hwalk, Run.withWorld,
        Run.goOn, Run.stop]
  turn _ _ := rfl
  pickUp run := by
    rw [pickUp, pickUp]
    simp only [unlogged, Run.forget]
    split <;> rfl
  holds _ condition := by cases condition <;> rfl

/-- What a program does, apart from the log, does not depend on the log. -/
theorem execute_forget (setting : Setting) (program : Program) (run : Run) :
    setting.unlogged.execute 0 program run.forget = (setting.execute 0 program run).forget :=
  setting.unlogged_matches.execute 0 program run

end Setting

end TileCourse
