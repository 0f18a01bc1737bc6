import TileCourse.Proofs.Simulation.Replay
import TileCourse.Proofs.Simulation.Verdict

/-!
# What programs cost

How many steps a program takes can be told from its text, up to the choice between branches. Each
instruction takes its own step, and the steps of its bodies: a loop as many times as it is
repeated, a branch with a condition for one of its two lists. If the cheaper list is always counted
this is the least number of steps that a run takes which nothing stops, and if the dearer one is
counted no run takes more. `Run.Takes` is what is shown of every part of a program, and
`steps_within_cost` what follows for results.
-/

namespace TileCourse

namespace Instruction

mutual

/-- The number of steps of an instruction with all that it carries out. A function chooses between
the costs of the two lists of a branch. -/
def cost (choose : Nat → Nat → Nat) : Instruction → Nat
  | .loop times body => 1 + times.toNat * costIn choose body
  | .branch (some _) whenTrue whenFalse =>
      1 + choose (costIn choose whenTrue) (costIn choose whenFalse)
  | .move | .turn _ | .collect | .branch none _ _ | .other _ => 1

/-- The number of steps of a list of instructions. -/
def costIn (choose : Nat → Nat → Nat) : List Instruction → Nat
  | [] => 0
  | instruction :: rest => cost choose instruction + costIn choose rest

end

mutual

/-- Where nothing is asked there is nothing to choose. -/
theorem cost_unconditional (choose other : Nat → Nat → Nat) :
    ∀ {instruction : Instruction}, instruction.Everywhere Unconditional →
      instruction.cost choose = instruction.cost other
  | .loop _ _, h => by rw [cost, cost, cost_in_unconditional choose other h.2]
  | .branch (some _) _ _, h => h.1.elim
  | .move, _ | .turn _, _ | .collect, _ | .branch none _ _, _ | .other _, _ => by
      simp only [cost]

/-- Without branches it does not matter for the cost of a list which branch costs more. -/
theorem cost_in_unconditional (choose other : Nat → Nat → Nat) :
    ∀ {program : List Instruction}, EverywhereIn Unconditional program →
      costIn choose program = costIn other program
  | [], _ => rfl
  | _ :: _, h => by
      rw [costIn, costIn, cost_unconditional choose other h.1,
        cost_in_unconditional choose other h.2]

end

end Instruction

namespace Program

/-- The fewest steps in which a program can be carried out to its end. -/
def leastSteps (program : Program) : Nat := Instruction.costIn min program

/-- The most steps that a program can take. -/
def mostSteps (program : Program) : Nat := Instruction.costIn max program

end Program

/-- From a run to an outcome it takes no more than `most` steps, and no fewer than `least` unless
something stops the run. -/
structure Run.Takes (run : Run) (least most : Nat) (outcome : Outcome) : Prop where
  most : outcome.run.world.steps.toNat ≤ run.world.steps.toNat + most
  least : outcome.failure = none →
    run.world.steps.toNat + least ≤ outcome.run.world.steps.toNat

namespace Run

variable {run : Run} {outcome : Outcome} {least most least' most' : Nat}

/-- Going on at once takes no step. -/
theorem takes_go_on (run : Run) : run.Takes 0 0 run.goOn :=
  ⟨Nat.le_refl _, fun _ => Nat.le_refl _⟩

/-- Stopping at once takes no step, and promises none. -/
theorem takes_stop (run : Run) (code : ErrorCode) : run.Takes least most (run.stop code) :=
  ⟨Nat.le_add_right _ _, fun hfree => nomatch hfree⟩

/-- Bounds can be made looser. -/
theorem Takes.mono (h : run.Takes least most outcome) (hleast : least' ≤ least)
    (hmost : most ≤ most') : run.Takes least' most' outcome where
  most := Nat.le_trans h.most (Nat.add_le_add_left hmost _)
  least hfree := Nat.le_trans (Nat.add_le_add_left hleast _) (h.least hfree)

/-- One part after the other takes the steps of both. -/
theorem Takes.and_then {rest : Run → Outcome} (h : run.Takes least most outcome)
    (hrest : ∀ run : Run, run.Takes least' most' (rest run)) :
    run.Takes (least + least') (most + most') (outcome.andThen rest) := by
  obtain ⟨middle, _ | code⟩ := outcome
  · -- nothing has stopped the first part, so its least number of steps counts as well
    have hmost : middle.world.steps.toNat ≤ run.world.steps.toNat + most := h.most
    have hleast : run.world.steps.toNat + least ≤ middle.world.steps.toNat := h.least rfl
    obtain ⟨hmost', hleast'⟩ := hrest middle
    exact ⟨Nat.le_trans hmost' (by omega), fun hfree => Nat.le_trans (by omega) (hleast' hfree)⟩
  · exact ⟨Nat.le_trans h.most (by omega), fun hfree => nomatch hfree⟩

end Run

namespace Setting

variable {setting : Setting} {least most : Nat}

/-- A loop takes the steps of its body as often as it turns. -/
theorem iterate_takes {body : Run → Outcome} (h : ∀ run : Run, run.Takes least most (body run))
    (n : Nat) (run : Run) : run.Takes (n * least) (n * most) (iterate body n run) := by
  induction n generalizing run with
  | zero =>
      rw [Nat.zero_mul, Nat.zero_mul]
      exact run.takes_go_on
  | succ n ih =>
      rw [iterate_succ, Nat.succ_mul, Nat.succ_mul, Nat.add_comm, Nat.add_comm (n * most)]
      exact (h run).and_then ih

/-- A body takes the steps of what is in it. -/
theorem enter_takes {depth : Nat} {body : Run → Outcome}
    (h : ∀ run : Run, run.Takes least most (body run)) (run : Run) :
    run.Takes least most (setting.enter depth body run) := by
  rw [enter]
  split
  · exact run.takes_stop _
  · exact h run

/-- What an instruction does by itself takes no further step. -/
theorem affect_takes (setting : Setting) (instruction : Instruction) (run : Run)
    (failure : Option ErrorCode) : run.Takes 0 0 ⟨setting.affect instruction run, failure⟩ where
  most := by rw [affect_steps]; exact Nat.le_refl _
  least _ := by rw [affect_steps]; exact Nat.le_refl _

/-- The step of an instruction is one more. -/
theorem charge_takes (instruction : Instruction) {run : Run} {outcome : Outcome}
    (hroom : run.world.steps < setting.stepLimit)
    (h : (setting.charge instruction run).Takes least most outcome) :
    run.Takes (1 + least) (1 + most) outcome := by
  obtain ⟨hmost, hleast⟩ := h
  rw [charge_steps instruction hroom] at hmost hleast
  exact ⟨by omega, fun hfree => by have := hleast hfree; omega⟩

/-- The step of an instruction takes what its effect takes, counted from the step on. -/
theorem spend_takes {instruction : Instruction} {act : Run → Outcome} {run : Run}
    (h : run.world.steps < setting.stepLimit →
      run.Takes least most (act (setting.charge instruction run))) :
    run.Takes least most (setting.spend instruction act run) := by
  rw [spend]
  split
  · exact run.takes_stop _
  · rename_i hlimit
    exact h (UInt32.not_le.1 hlimit)

mutual

/-- An instruction with its step takes what it costs. -/
theorem act_takes (depth : Nat) : ∀ (instruction : Instruction) {run : Run},
    run.world.steps < setting.stepLimit → run.Takes (instruction.cost min) (instruction.cost max)
      (setting.act depth instruction (setting.charge instruction run))
  | .move, run, hroom => by
      rw [act, move_eq]
      exact charge_takes _ hroom (setting.affect_takes .move _ _)
  | .turn side, run, hroom => charge_takes _ hroom (setting.affect_takes (.turn side) _ _)
  | .collect, run, hroom => charge_takes _ hroom (setting.affect_takes .collect _ _)
  | .other kind, run, hroom => charge_takes _ hroom (setting.affect_takes (.other kind) _ _)
  | .branch none _ _, run, hroom => charge_takes _ hroom (Run.takes_go_on _)
  | .loop times body, run, hroom => by
      refine charge_takes (.loop times body) hroom ?_
      rw [act]
      split
      · rename_i hempty
        rw [List.isEmpty_iff.1 hempty]
        exact Run.takes_go_on _
      · exact iterate_takes (enter_takes (perform_all_takes (depth + 1) body)) _ _
  | .branch (some condition) whenTrue whenFalse, run, hroom => by
      refine charge_takes (.branch (some condition) whenTrue whenFalse) hroom ?_
      rw [act]
      split
      · exact (enter_takes (perform_all_takes (depth + 1) whenTrue) _).mono (Nat.min_le_left _ _)
          (Nat.le_max_left _ _)
      · exact (enter_takes (perform_all_takes (depth + 1) whenFalse) _).mono (Nat.min_le_right _ _)
          (Nat.le_max_right _ _)

/-- A list of instructions takes what it costs. -/
theorem perform_all_takes (depth : Nat) : ∀ (program : Program) (run : Run),
    run.Takes program.leastSteps program.mostSteps (setting.performAll depth program run)
  | [], run => run.takes_go_on
  | instruction :: rest, run => by
      rw [perform_all_cons]
      exact (spend_takes (act_takes depth instruction)).and_then (perform_all_takes depth rest)

end

/-- A whole program takes what it costs. -/
theorem execute_takes (depth : Nat) (program : Program) (run : Run) :
    run.Takes program.leastSteps program.mostSteps (setting.execute depth program run) :=
  enter_takes (perform_all_takes depth program) run

end Setting

/-- No run takes more steps than its program costs if every branch is the dearer one, and none that
goes on to the end of the program takes fewer than it costs if every branch is the cheaper one. A
program that asks nothing costs the same whatever is chosen, and takes exactly that. A program for
which the budget does not suffice in any case is stopped on the way. -/
theorem steps_within_cost (level : Level) (options : Options) (program : Program) :
    let result := simulate level options program
    let failure := options.failure? level program
    result.steps.toNat ≤ program.mostSteps ∧
    (failure = none → program.leastSteps ≤ result.steps.toNat) ∧
    (Instruction.EverywhereIn Instruction.Unconditional program → failure = none →
      ∀ choose, result.steps.toNat = Instruction.costIn choose program) ∧
    ((options.budget level).toNat < program.leastSteps →
      ∃ code, failure = some code ∧ code ≠ .goalNotMet ∧ result.errorCode = some code) := by
  intro result failure
  have htakes := (options.setting level).execute_takes 0 program (.start level)
  have hmost : result.steps.toNat ≤ 0 + program.mostSteps := htakes.most
  have hleast : failure = none → 0 + program.leastSteps ≤ result.steps.toNat := htakes.least
  rw [Nat.zero_add] at hmost hleast
  refine ⟨hmost, hleast, fun hfixed hfree choose => ?_, fun hshort => ?_⟩
  · have hmin := Instruction.cost_in_unconditional choose min hfixed
    have hmax := Instruction.cost_in_unconditional choose max hfixed
    exact Nat.le_antisymm (hmax ▸ hmost) (hmin ▸ hleast hfree)
  · have hbudget := UInt32.le_iff_toNat_le.1 (Setting.execute_steps_le level options program)
    have hends : result.Ends level.goal failure := simulate_ends level options program
    -- a run that nothing stops would have taken more steps than its budget allows
    have hstopped : failure ≠ none := fun hfree =>
      absurd (Nat.le_trans (hleast hfree) hbudget) (Nat.not_le.2 hshort)
    generalize failure = ending at hends hstopped
    cases hends with
    | stopped code hcode _ _ herror => exact ⟨code, rfl, hcode, herror⟩
    | reached | missed => exact absurd rfl hstopped

/-- Going on to the apple and then turning takes from five to seven steps, and is stopped if only
four are allowed. -/
theorem steps_within_cost_orchard :
    let program : Program :=
      [.loop 2 [.branch (some .tileAheadWalkable) [.move, .collect] [.turn .left]]]
    let straight : Program := [.loop 2 [.turn .left, .collect]]
    let options := Options.ofDefaults 100 8
    let short := Options.ofDefaults 4 8
    program.leastSteps = 5 ∧ program.mostSteps = 7 ∧
    options.failure? .orchard program = none ∧
    5 ≤ (simulate .orchard options program).steps.toNat ∧
    (simulate .orchard options program).steps.toNat ≤ 7 ∧
    (simulate .orchard options straight).steps.toNat = Instruction.costIn max straight ∧
    (short.budget .orchard).toNat < program.leastSteps ∧
    ∃ code, (simulate .orchard short program).errorCode = some code ∧ code ≠ .goalNotMet := by
  intro program straight options short
  have hleast : program.leastSteps = 5 := by decide
  have hmost : program.mostSteps = 7 := by decide
  have hfree : options.failure? .orchard program = none := by decide
  have hstraight : options.failure? .orchard straight = none := by decide
  have hbudget : (short.budget .orchard).toNat < program.leastSteps := by decide
  obtain ⟨hsteps, henough, -⟩ := steps_within_cost .orchard options program
  obtain ⟨-, -, hexact, -⟩ := steps_within_cost .orchard options straight
  obtain ⟨-, -, -, hshort⟩ := steps_within_cost .orchard short program
  obtain ⟨code, -, hcode, herror⟩ := hshort hbudget
  exact ⟨hleast, hmost, hfree, hleast ▸ henough hfree, hmost ▸ hsteps,
    hexact ⟨⟨trivial, trivial, trivial, trivial⟩, trivial⟩ hstraight max, hbudget,
    ⟨code, herror, hcode⟩⟩

end TileCourse
