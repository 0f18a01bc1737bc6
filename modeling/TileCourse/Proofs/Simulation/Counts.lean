import TileCourse.Proofs.Simulation.Cost
import TileCourse.Proofs.Simulation.Work

/-!
# Counts beyond the budget

A body with an instruction in it takes a step in every round that goes on, so no run ever comes to
a round that lies beyond its budget. `iterate_min` says so of one loop, and `perform_all_capped` of
a whole program: the counts in it may be cut down to the budget, and each run remains the same but
for the counts that its log shows.
-/

namespace TileCourse

namespace Instruction

mutual

/-- The instruction with no count in it above a limit. -/
def capped (limit : UInt32) : Instruction → Instruction
  | .loop times body => .loop (min times limit) (cappedIn limit body)
  | .branch condition whenTrue whenFalse =>
      .branch condition (cappedIn limit whenTrue) (cappedIn limit whenFalse)
  | .move => .move
  | .turn side => .turn side
  | .collect => .collect
  | .other kind => .other kind

/-- The instructions with no count in them above a limit. -/
def cappedIn (limit : UInt32) : List Instruction → List Instruction
  | [] => []
  | instruction :: rest => capped limit instruction :: cappedIn limit rest

end

end Instruction

/-- The step with no count above a limit in its instruction. -/
def Step.capped (limit : UInt32) (step : Step) : Step :=
  { step with instruction := step.instruction.capped limit }

/-- The run with no count above a limit in its log. -/
def Run.capped (limit : UInt32) (run : Run) : Run :=
  { run with log := run.log.map (Step.capped limit) }

/-- The result with no count above a limit in its log. -/
def Result.capped (limit : UInt32) (result : Result) : Result :=
  { result with log := result.log.map (Step.capped limit) }

namespace Instruction

/-- Cutting the counts of a list leaves out no instruction. -/
theorem capped_in_is_empty (limit : UInt32) (program : Program) :
    (cappedIn limit program).isEmpty = program.isEmpty := by
  cases program <;> rfl

/-- Every instruction takes a step. -/
theorem one_le_cost (choose : Nat → Nat → Nat) (instruction : Instruction) :
    1 ≤ instruction.cost choose := by
  cases instruction with
  | branch condition => cases condition <;> simp [cost]
  | move | turn | collect | loop | other => simp [cost]

end Instruction

/-- A program that is not empty takes a step. -/
theorem Program.least_steps_pos {program : Program} (h : program ≠ []) :
    1 ≤ program.leastSteps := by
  cases program with
  | nil => exact absurd rfl h
  | cons instruction rest =>
      exact Nat.le_trans (instruction.one_le_cost min) (Nat.le_add_right _ _)

namespace Setting

variable {setting : Setting}

/-! ### One loop -/

/-- A part of a program takes a step whenever it goes on, within the budget. -/
def Strides (setting : Setting) (body : Run → Outcome) : Prop :=
  ∀ run after : Run, run.world.steps ≤ setting.stepLimit → body run = after.goOn →
    run.world.steps < after.world.steps ∧ after.world.steps ≤ setting.stepLimit

/-- A body with an instruction in it takes a step in every round. -/
theorem enter_strides (depth : Nat) {body : Program} (hbody : body ≠ []) :
    setting.Strides (setting.enter depth (setting.performAll depth body)) := by
  intro run after hwithin hafter
  have hleads : Leads setting (fun _ => True) run
      (setting.enter depth (setting.performAll depth body) run) :=
    enter_leads (perform_all_leads depth (everywhere_in_true body)) run
  have htakes : run.Takes body.leastSteps body.mostSteps
      (setting.enter depth (setting.performAll depth body) run) :=
    enter_takes (perform_all_takes depth body) run
  rw [hafter] at hleads htakes
  have hpos := Program.least_steps_pos hbody
  have hleast : run.world.steps.toNat + body.leastSteps ≤ after.world.steps.toNat :=
    htakes.least rfl
  exact ⟨UInt32.lt_iff_toNat_lt.2 (by omega), hleads.steps_le hwithin⟩

/-- More rounds than the budget has steps left make no difference. -/
theorem iterate_beyond {body : Run → Outcome} (hbody : setting.Strides body) {few many : Nat}
    (hle : few ≤ many) {run : Run} (hwithin : run.world.steps ≤ setting.stepLimit)
    (hbeyond : setting.stepLimit.toNat < run.world.steps.toNat + few) :
    iterate body few run = iterate body many run := by
  induction few generalizing many run with
  | zero => exact absurd (UInt32.le_iff_toNat_le.1 hwithin) (Nat.not_le.2 hbeyond)
  | succ few ih =>
      obtain ⟨many, rfl⟩ : ∃ n, many = n + 1 := ⟨many - 1, by omega⟩
      rw [iterate_succ, iterate_succ]
      cases hround : body run with
      | mk after failure =>
        cases failure with
        | none =>
            obtain ⟨hstep, hafter⟩ := hbody run after hwithin hround
            have hstep := UInt32.lt_iff_toNat_lt.1 hstep
            exact ih (by omega) hafter (by omega)
        | some code => rfl

/-- A loop whose own step has been taken need not be repeated more often than the budget has
steps. -/
theorem iterate_min {body : Run → Outcome} (hbody : setting.Strides body) {run : Run}
    (hpos : 0 < run.world.steps) (hwithin : run.world.steps ≤ setting.stepLimit) (n : Nat) :
    iterate body (min n setting.stepLimit.toNat) run = iterate body n run := by
  rcases Nat.le_total n setting.stepLimit.toNat with hle | hle
  · rw [Nat.min_eq_left hle]
  · rw [Nat.min_eq_right hle]
    have hpos := UInt32.lt_iff_toNat_lt.1 hpos
    exact iterate_beyond hbody hle hwithin (by simp at hpos; omega)

/-! ### Whole programs -/

/-- The step of an instruction with smaller counts is logged with these. -/
theorem charge_capped (limit : UInt32) (instruction : Instruction) (run : Run) :
    setting.charge (instruction.capped limit) (run.capped limit) =
      (setting.charge instruction run).capped limit := by
  rw [charge, charge, Run.capped, Run.capped]
  split <;> simp [Step.capped]

mutual

/-- An instruction whose step has been taken does the same with smaller counts. -/
theorem act_capped (depth : Nat) : ∀ (instruction : Instruction) {run : Run},
    0 < run.world.steps → run.world.steps ≤ setting.stepLimit →
      setting.act depth (instruction.capped setting.stepLimit) (run.capped setting.stepLimit) =
        (setting.act depth instruction run).mapRun (Run.capped setting.stepLimit)
  | .move, run, _, _ => by
      rw [Instruction.capped, act, act, move_eq, move_eq]
      by_cases hwalk : setting.grid.isWalkable run.world.position.ahead <;>
        simp [affect, move, obstacle?, Run.capped, Outcome.mapRun, hwalk, Run.withWorld, Run.goOn,
          Run.stop]
  | .turn _, _, _, _ => rfl
  | .collect, run, _, _ => by
      rw [Instruction.capped, act, act, pickUp, pickUp]
      simp only [Run.capped, Outcome.mapRun, Run.goOn]
      split <;> rfl
  | .loop times body, run, hpos, hwithin => by
      have hdepth : setting.maxDepth = setting.maxDepth := rfl
      have hrounds := enter_map hdepth (depth + 1) (perform_all_capped (depth + 1) body)
      rw [Instruction.capped, act, act, Instruction.capped_in_is_empty]
      split
      · rfl
      · rename_i hbody
        have hstrides : setting.Strides _ := enter_strides (depth + 1) (mt List.isEmpty_iff.2 hbody)
        rw [UInt32.toNat_min, iterate_map hrounds, iterate_min hstrides hpos hwithin]
  | .branch none _ _, _, _, _ => rfl
  | .branch (some condition) whenTrue whenFalse, run, _, _ => by
      have hholds : setting.holds (run.capped setting.stepLimit) condition =
          setting.holds run condition := by
        cases condition <;> rfl
      rw [Instruction.capped, act, act, hholds]
      split
      · exact enter_map rfl _ (perform_all_capped (depth + 1) whenTrue) run
      · exact enter_map rfl _ (perform_all_capped (depth + 1) whenFalse) run
  | .other _, _, _, _ => rfl

/-- A program does the same with smaller counts. -/
theorem perform_all_capped (depth : Nat) : ∀ (program : Program) (run : Run),
    setting.performAll depth (Instruction.cappedIn setting.stepLimit program)
        (run.capped setting.stepLimit) =
      (setting.performAll depth program run).mapRun (Run.capped setting.stepLimit)
  | [], _ => rfl
  | instruction :: rest, run => by
      rw [Instruction.cappedIn, perform_all_cons, perform_all_cons,
        spend_map rfl rfl (charge_capped setting.stepLimit instruction run) fun hroom => ?_]
      · exact and_then_map (perform_all_capped depth rest)
      · have hcharged := charge_steps instruction hroom
        have hlt := UInt32.lt_iff_toNat_lt.1 hroom
        exact act_capped depth instruction (UInt32.lt_iff_toNat_lt.2 (by simp; omega))
          (UInt32.le_iff_toNat_le.2 (by omega))

end

/-- A whole program does the same with smaller counts. -/
theorem execute_capped (setting : Setting) (depth : Nat) (program : Program) (run : Run) :
    setting.execute depth (Instruction.cappedIn setting.stepLimit program)
        (run.capped setting.stepLimit) =
      (setting.execute depth program run).mapRun (Run.capped setting.stepLimit) :=
  enter_map rfl depth (perform_all_capped depth program) run

end Setting

/-- At the start there is no count to cut. -/
theorem Run.start_capped (limit : UInt32) (level : Level) :
    (Run.start level).capped limit = .start level := by
  simp [Run.capped, Run.start]

/-- The result of an outcome with its counts cut is the result with its counts cut. -/
theorem Outcome.result_capped (limit : UInt32) (outcome : Outcome) (level : Level) :
    (outcome.mapRun (Run.capped limit)).result level = (outcome.result level).capped limit := by
  simp [Outcome.result, Outcome.mapRun, Run.capped, Result.capped]

/-- Counts above the budget do not matter. If each count in a program, at any depth, is cut down to
the budget of its run, the result is the same in every respect, and so is the log but for the
counts in it. So what a run takes is bounded by the budget, not by the counts: with one piece of
work for each instruction that is looked at and one for each list that is entered, it is at most
three pieces for each step that is allowed, and two. -/
theorem counts_beyond_budget (level : Level) (options : Options) (program : Program) :
    let limit := options.budget level
    let metered := (options.setting level).executeMetered 0 program (.start level)
    simulate level options (Instruction.cappedIn limit program) =
      (simulate level options program).capped limit ∧
    metered.outcome = (options.setting level).execute 0 program (.start level) ∧
    metered.work ≤ 3 * limit.toNat + 2 := by
  intro limit metered
  have hexecute := (options.setting level).execute_capped 0 program (.start level)
  rw [Run.start_capped] at hexecute
  refine ⟨(congrArg (Outcome.result · level) hexecute).trans (Outcome.result_capped _ _ level),
    Setting.execute_metered_outcome _ 0 program _, ?_⟩
  have hsteps : (simulate level options program).steps.toNat ≤ limit.toNat :=
    UInt32.le_iff_toNat_le.1 (Setting.execute_steps_le level options program)
  have hwork : metered.work + 0 ≤ 3 * (simulate level options program).steps.toNat + 2 :=
    (options.setting level).execute_metered_work program (.start level) 0
  omega

end TileCourse
