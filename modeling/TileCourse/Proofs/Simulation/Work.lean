import TileCourse.Proofs.Simulation.Budget

/-!
# The work of a run

Steps are what a run is charged for. What it takes to carry a program out is more: an instruction
that the budget does not allow is looked at all the same, and so is a body that lies too deep or
has nothing in it. `Setting.executeMetered` carries a program out and counts all of that;
`execute_metered_outcome` says that it is the same run. Three pieces of work are paid by every
step: the look at its instruction, the entry into the list that the instruction begins, and the
entry into an empty list that a branch may choose. So `execute_metered_work` bounds the work by the
steps, whatever is written on the loops.
-/

namespace TileCourse

/-- An outcome with the work that led to it: a piece for each instruction that is looked at, and one
for each list that is entered. -/
structure Metered where
  outcome : Outcome
  work : Nat

namespace Metered

/-- An outcome for which nothing had to be done. -/
def free (outcome : Outcome) : Metered := ⟨outcome, 0⟩

/-- One piece of work more. -/
def tick (metered : Metered) : Metered := { metered with work := metered.work + 1 }

/-- Go on with the rest unless something has stopped the run. -/
def andThen (first : Metered) (rest : Run → Metered) : Metered :=
  match first.outcome with
  | ⟨run, none⟩ => ⟨(rest run).outcome, first.work + (rest run).work⟩
  | _ => first

end Metered

namespace Setting

/-- Enter a body that lies in `depth` bodies. -/
def enterMetered (setting : Setting) (depth : Nat) (body : Run → Metered) (run : Run) : Metered :=
  (if setting.maxDepth.toNat < depth then .free (run.stop .loopDepth) else body run).tick

/-- Carry out a part of a program a number of times. -/
def iterateMetered (body : Run → Metered) : Nat → Run → Metered
  | 0, run => .free run.goOn
  | n + 1, run => (body run).andThen (iterateMetered body n)

/-- Look at an instruction, and carry it out if the budget allows its step. -/
def spendMetered (setting : Setting) (instruction : Instruction) (act : Run → Metered)
    (run : Run) : Metered :=
  (if setting.stepLimit ≤ run.world.steps then .free (run.stop .stepLimit)
    else act (setting.charge instruction run)).tick

mutual

/-- Carry out an instruction whose step has been taken. Only its bodies are more work. -/
def actMetered (setting : Setting) (depth : Nat) : Instruction → Run → Metered
  | .loop times body, run =>
    if body.isEmpty then .free run.goOn
    else
      iterateMetered (setting.enterMetered (depth + 1)
        (performAllMetered setting (depth + 1) body)) times.toNat run
  | .branch (some condition) whenTrue whenFalse, run =>
    if setting.holds run condition then
      setting.enterMetered (depth + 1) (performAllMetered setting (depth + 1) whenTrue) run
    else setting.enterMetered (depth + 1) (performAllMetered setting (depth + 1) whenFalse) run
  | .branch none _ _, run => .free run.goOn
  | .move, run => .free (setting.move run)
  | .turn side, run => .free (turn side run).goOn
  | .collect, run => .free (setting.pickUp run).goOn
  | .other kind, run => .free (run.stop (.ofKind kind))

/-- Carry out instructions one after the other. -/
def performAllMetered (setting : Setting) (depth : Nat) : List Instruction → Run → Metered
  | [], run => .free run.goOn
  | instruction :: rest, run =>
    (setting.spendMetered instruction (actMetered setting depth instruction) run).andThen
      (performAllMetered setting depth rest)

end

/-- Carry out a list of instructions that lies in `depth` bodies. -/
def executeMetered (setting : Setting) (depth : Nat) (program : Program) (run : Run) : Metered :=
  setting.enterMetered depth (setting.performAllMetered depth program) run

/-! ### The same run -/

variable {setting : Setting}

/-- One part after another has the outcome of the plain parts. -/
theorem and_then_outcome (first : Metered) (rest : Run → Metered) :
    (first.andThen rest).outcome = first.outcome.andThen fun run => (rest run).outcome := by
  obtain ⟨⟨run, _ | code⟩, work⟩ := first <;> rfl

/-- A metered body has the outcome of the plain body. -/
theorem enter_metered_outcome {body : Run → Metered} {plain : Run → Outcome}
    (h : ∀ run, (body run).outcome = plain run) (depth : Nat) (run : Run) :
    (setting.enterMetered depth body run).outcome = setting.enter depth plain run := by
  rw [enterMetered, enter]
  split
  · rfl
  · exact h run

/-- A metered loop has the outcome of the plain loop. -/
theorem iterate_metered_outcome {body : Run → Metered} {plain : Run → Outcome}
    (h : ∀ run, (body run).outcome = plain run) (n : Nat) (run : Run) :
    (iterateMetered body n run).outcome = iterate plain n run := by
  induction n generalizing run with
  | zero => rfl
  | succ n ih =>
      rw [iterateMetered, and_then_outcome, iterate_succ, h]
      exact congrArg _ (funext ih)

/-- A metered step has the outcome of the plain step. -/
theorem spend_metered_outcome {instruction : Instruction} {act : Run → Metered}
    {plain : Run → Outcome} (h : ∀ run, (act run).outcome = plain run) (run : Run) :
    (setting.spendMetered instruction act run).outcome = setting.spend instruction plain run := by
  rw [spendMetered, spend]
  split
  · rfl
  · exact h _

mutual

/-- A metered instruction has the outcome of the plain instruction. -/
theorem act_metered_outcome (depth : Nat) : ∀ (instruction : Instruction) (run : Run),
    (setting.actMetered depth instruction run).outcome = setting.act depth instruction run
  | .loop times body, run => by
      rw [actMetered, act]
      split
      · rfl
      · exact iterate_metered_outcome
          (enter_metered_outcome (perform_all_metered_outcome (depth + 1) body) (depth + 1)) _ run
  | .branch (some condition) whenTrue whenFalse, run => by
      rw [actMetered, act]
      split
      · exact enter_metered_outcome (perform_all_metered_outcome (depth + 1) whenTrue) _ run
      · exact enter_metered_outcome (perform_all_metered_outcome (depth + 1) whenFalse) _ run
  | .branch none _ _, _ | .move, _ | .turn _, _ | .collect, _ | .other _, _ => rfl

/-- Metered instructions have the outcome of the plain instructions. -/
theorem perform_all_metered_outcome (depth : Nat) : ∀ (program : Program) (run : Run),
    (setting.performAllMetered depth program run).outcome = setting.performAll depth program run
  | [], _ => rfl
  | instruction :: rest, run => by
      rw [performAllMetered, and_then_outcome, perform_all_cons,
        spend_metered_outcome (act_metered_outcome depth instruction)]
      exact congrArg _ (funext (perform_all_metered_outcome depth rest))

end

/-- Counting the work does not change the run. -/
theorem execute_metered_outcome (setting : Setting) (depth : Nat) (program : Program) (run : Run) :
    (setting.executeMetered depth program run).outcome = setting.execute depth program run :=
  enter_metered_outcome (perform_all_metered_outcome depth program) depth run

end Setting

/-! ### What the steps pay for -/

/-- Every step from a run to the outcome pays for three pieces of the work. Of what is not paid
there are at most `going` pieces if the run goes on, and `last` in any case. Less than none are
pieces that have been paid without need. -/
structure Metered.Paid (metered : Metered) (run : Run) (going last : Int) : Prop where
  going : metered.outcome.failure = none →
    metered.work + 3 * (run.world.steps.toNat : Int) ≤
      3 * metered.outcome.run.world.steps.toNat + going
  last : metered.work + 3 * (run.world.steps.toNat : Int) ≤
    3 * metered.outcome.run.world.steps.toNat + last

namespace Metered

variable {metered : Metered} {run : Run} {going last going' last' : Int}

/-- What takes no work and no steps is paid. -/
theorem paid_free {outcome : Outcome}
    (hsteps : outcome.run.world.steps = run.world.steps) : (free outcome).Paid run 0 0 := by
  constructor <;> simp [free, hsteps]

/-- Stopping at once is paid. -/
theorem paid_stop (run : Run) (code : ErrorCode) : (free (run.stop code)).Paid run going 0 :=
  ⟨fun hfree => (nomatch hfree), (paid_free rfl).last⟩

/-- What is paid but for some pieces is paid but for more. -/
theorem Paid.mono (h : metered.Paid run going last) (hgoing : going ≤ going')
    (hlast : last ≤ last') : metered.Paid run going' last' where
  going hfree := by have := h.going hfree; omega
  last := by have := h.last; omega

/-- One piece of work more is one piece more that is not paid. -/
theorem Paid.tick (h : metered.Paid run going last) :
    metered.tick.Paid run (going + 1) (last + 1) where
  going hfree := by
    have hwork := h.going hfree
    simp only [Metered.tick, Int.natCast_add]
    omega
  last := by
    have hwork := h.last
    simp only [Metered.tick, Int.natCast_add]
    omega

/-- Parts that are paid, one after the other, are paid but for what both leave. -/
theorem Paid.and_then {rest : Run → Metered} (h : metered.Paid run going last)
    (hrest : ∀ run, (rest run).Paid run going' last') (hgoing : going ≤ 0) (hlast : last ≤ last') :
    (metered.andThen rest).Paid run (going + going') last' := by
  obtain ⟨⟨middle, _ | code⟩, work⟩ := metered
  · -- the first part goes on, so the work of both is paid by the steps of both
    have hfirst : (work : Int) + 3 * run.world.steps.toNat ≤ 3 * middle.world.steps.toNat + going :=
      h.going rfl
    obtain ⟨hboth, hend⟩ := hrest middle
    constructor
    · intro hfree
      have hfinal := hboth hfree
      simp only [Metered.andThen, Int.natCast_add]
      omega
    · simp only [Metered.andThen, Int.natCast_add]
      omega
  · exact ⟨fun hfree => (nomatch hfree), (h.mono (Int.le_refl _) hlast).last⟩

end Metered

namespace Setting

variable {setting : Setting} {going last : Int}

/-- A loop is paid if every turn is that goes on. -/
theorem iterate_paid {body : Run → Metered} (h : ∀ run, (body run).Paid run 0 last)
    (hlast : 0 ≤ last) (n : Nat) (run : Run) : (iterateMetered body n run).Paid run 0 last := by
  induction n generalizing run with
  | zero => exact (Metered.paid_free rfl).mono (Int.le_refl _) hlast
  | succ n ih => exact (h run).and_then ih (Int.le_refl _) (Int.le_refl _)

/-- Entering a list is one piece of work more. -/
theorem enter_paid {depth : Nat} {body : Run → Metered} (hlast : 0 ≤ last)
    (h : ∀ run, (body run).Paid run going last) (run : Run) :
    (setting.enterMetered depth body run).Paid run (going + 1) (last + 1) := by
  rw [enterMetered]
  split
  · exact ((Metered.paid_stop run _).mono (Int.le_refl _) hlast).tick
  · exact (h run).tick

/-- The step of an instruction pays for the look at it, and for two pieces of what it does. -/
theorem spend_paid {instruction : Instruction} {act : Run → Metered} {run : Run}
    (h : (act (setting.charge instruction run)).Paid (setting.charge instruction run) 1 2) :
    (setting.spendMetered instruction act run).Paid run (-1) 1 := by
  rw [spendMetered]
  split
  · have hstop : (Metered.free (run.stop .stepLimit)).Paid run (-2) 0 := Metered.paid_stop run _
    exact hstop.tick
  · rename_i hlimit
    have hsteps := charge_steps instruction (UInt32.not_le.1 hlimit)
    obtain ⟨hgoing, hlast⟩ := h.tick
    rw [hsteps] at hgoing hlast
    exact ⟨fun hfree => by have := hgoing hfree; omega, by omega⟩

mutual

/-- An instruction whose step has been taken is carried out with the work that is paid by the steps
in its bodies, and one or two pieces. -/
theorem act_paid (depth : Nat) : ∀ (instruction : Instruction) (run : Run),
    (setting.actMetered depth instruction run).Paid run 1 2
  | .loop times body, run => by
      rw [actMetered]
      split
      · exact (Metered.paid_free rfl).mono (by decide) (by decide)
      · rename_i hbody
        have hbody (run : Run) : (setting.performAllMetered (depth + 1) body run).Paid run (-1) 1 :=
          (perform_all_paid (depth + 1) body run).2 (mt List.isEmpty_iff.2 hbody)
        exact (iterate_paid (enter_paid (by decide) hbody) (by decide) _ run).mono (by decide)
          (by decide)
  | .branch (some condition) whenTrue whenFalse, run => by
      rw [actMetered]
      split
      · exact enter_paid (by decide) (fun run => (perform_all_paid (depth + 1) whenTrue run).1) run
      · exact enter_paid (by decide) (fun run => (perform_all_paid (depth + 1) whenFalse run).1) run
  | .branch none _ _, run => (Metered.paid_free rfl).mono (by decide) (by decide)
  | .move, run =>
      (Metered.paid_free (setting.affect_steps .move run)).mono (by decide) (by decide)
  | .turn side, run =>
      (Metered.paid_free (setting.affect_steps (.turn side) run)).mono (by decide) (by decide)
  | .collect, run =>
      (Metered.paid_free (setting.affect_steps .collect run)).mono (by decide) (by decide)
  | .other kind, run => (Metered.paid_free rfl).mono (by decide) (by decide)

/-- The work on a list of instructions is paid by their steps, and a piece is left over if there is
an instruction in it. -/
theorem perform_all_paid (depth : Nat) : ∀ (program : Program) (run : Run),
    (setting.performAllMetered depth program run).Paid run 0 1 ∧
      (program ≠ [] → (setting.performAllMetered depth program run).Paid run (-1) 1)
  | [], run => ⟨(Metered.paid_free rfl).mono (by decide) (by decide), fun h => absurd rfl h⟩
  | instruction :: rest, run => by
      have hspend : (setting.performAllMetered depth (instruction :: rest) run).Paid run (-1) 1 :=
        (spend_paid (act_paid depth instruction _)).and_then
          (fun run => (perform_all_paid depth rest run).1) (by decide) (by decide)
      exact ⟨hspend.mono (by decide) (by decide), fun _ => hspend⟩

end

/-- The work of a run is at most three pieces for every step, and two. -/
theorem execute_metered_work (setting : Setting) (program : Program) (run : Run) (depth : Nat) :
    (setting.executeMetered depth program run).work + 3 * run.world.steps.toNat ≤
      3 * (setting.execute depth program run).run.world.steps.toNat + 2 := by
  have hpaid : (setting.executeMetered depth program run).Paid run 1 2 :=
    enter_paid (by decide) (fun run => (perform_all_paid depth program run).1) run
  have hlast := hpaid.last
  rw [execute_metered_outcome] at hlast
  omega

end Setting

end TileCourse
