import TileCourse.Proofs.Simulation.Trace

/-!
# Logs as programs

The logged instructions that have no bodies, one after the other, are a program without loops and
branches. Carrying it out takes the same way over the level as the run that was logged:
`Setting.Leads.replayed` follows that run step by step, and a step for a loop or a branch changes
nothing but the number of steps. `simulate_replays` says so of whole runs. The state of the replay
is the same as that of the run apart from its steps and its log, so in particular what has been
collected so far, which no log tells, is found again.
-/

namespace TileCourse

/-- Whether an instruction has no bodies. -/
def Instruction.isPlain : Instruction → Bool
  | .loop _ _ | .branch _ _ _ => false
  | .move | .turn _ | .collect | .other _ => true

/-- The logged instructions that have no bodies, as a program. -/
def replayOf (log : List Step) : Program :=
  (log.map (·.instruction)).filter Instruction.isPlain

/-- Whether a failure is about the limits of a run and not about an instruction. -/
def ErrorCode.isLimit : ErrorCode → Bool
  | .stepLimit | .loopDepth => true
  | .collide | .goalNotMet | .unsupported _ => false

/-- Two states differ at most in the number of steps. -/
structure World.Alike (world other : World) : Prop where
  position : other.position = world.position
  remaining : other.remaining = world.remaining
  visited : other.visited = world.visited

/-- The outcome of a replay that starts after some steps: the same state, reached with one step for
each instruction of the replay, and the same failure unless the limits of the run caused it. -/
structure Outcome.Replays (outcome replay : Outcome) (steps : Nat) : Prop where
  world : outcome.run.world.Alike replay.run.world
  failure : replay.failure = outcome.failure.filter (!·.isLimit)
  steps : replay.run.world.steps.toNat = steps

namespace Setting

variable {setting again : Setting} {p : Instruction → Prop}

/-! ### Steps -/

/-- What stops a run depends only on the grid and on the state. -/
theorem obstacle_alike (hgrid : again.grid = setting.grid) {run other : Run}
    (h : run.world.Alike other.world) (instruction : Instruction) :
    again.obstacle? instruction other = setting.obstacle? instruction run := by
  cases instruction with
  | move => rw [obstacle?, obstacle?, hgrid, h.position]
  | turn | collect | loop | branch | other => rfl

/-- A step in two states that are alike leads to states that are alike. -/
theorem advance_alike (hgrid : again.grid = setting.grid) {run other : Run}
    (h : run.world.Alike other.world) (instruction : Instruction) :
    (setting.advance instruction run).world.Alike (again.advance instruction other).world := by
  obtain ⟨⟨position, steps, remaining, visited⟩, log⟩ := run
  obtain ⟨⟨position', steps', remaining', visited'⟩, log'⟩ := other
  obtain ⟨rfl, rfl, rfl⟩ := h
  cases instruction with
  | move =>
      simp only [advance, affect, move, charge, hgrid]
      split <;> exact ⟨rfl, rfl, rfl⟩
  | collect =>
      simp only [advance, affect, pickUp, charge, hgrid]
      split
      · simp only [Run.withWorld, World.collect]
        split <;> exact ⟨rfl, rfl, rfl⟩
      · exact ⟨rfl, rfl, rfl⟩
  | turn | loop | branch | other => exact ⟨rfl, rfl, rfl⟩

/-- An instruction with bodies does nothing by itself. -/
theorem advance_bodies {instruction : Instruction} (hbodies : instruction.isPlain = false)
    {run other : Run} (h : run.world.Alike other.world) :
    (setting.advance instruction run).world.Alike other.world := by
  cases instruction with
  | loop | branch => exact ⟨h.position, h.remaining, h.visited⟩
  | move | turn | collect | other => cases hbodies

/-- Only an instruction without bodies can stop a run by itself, and never by a limit. -/
theorem plain_of_obstacle {instruction : Instruction} {run : Run} {code : ErrorCode}
    (h : setting.obstacle? instruction run = some code) :
    instruction.isPlain = true ∧ code.isLimit = false := by
  cases instruction with
  | move =>
      rw [obstacle?] at h
      split at h
      · cases h
      · cases h
        exact ⟨rfl, rfl⟩
  | other =>
      cases h
      exact ⟨rfl, rfl⟩
  | turn | collect | loop | branch => cases h

/-- An instruction without bodies takes its step and is done. -/
theorem spend_plain {instruction : Instruction} (hplain : instruction.isPlain = true)
    {run : Run} (hlimit : run.world.steps < setting.stepLimit) (depth : Nat) :
    setting.spend instruction (setting.act depth instruction) run =
      ⟨setting.advance instruction run, setting.obstacle? instruction run⟩ := by
  rw [spend, if_neg (UInt32.not_le.2 hlimit)]
  cases instruction with
  | move => rw [act, move_eq, obstacle_charge, advance]
  | turn | collect | other => rfl
  | loop | branch => cases hplain

/-! ### Runs -/

/-- What an outcome adds to the log of a run is replayed from every state that is like that of the
run, if the budget allows a step for each instruction of the replay. -/
def Replayable (again : Setting) (run : Run) (outcome : Outcome) : Prop :=
  ∃ later, outcome.run.log.toList = run.log.toList ++ later ∧
    ∀ (depth : Nat) (other : Run), run.world.Alike other.world →
      other.world.steps.toNat + (replayOf later).length ≤ again.stepLimit.toNat →
      outcome.Replays (again.performAll depth (replayOf later) other)
        (other.world.steps.toNat + (replayOf later).length)

/-- Where a run ends between two steps there is nothing to replay. -/
theorem replayable_here (run : Run) {failure : Option ErrorCode}
    (hfailure : failure.filter (!·.isLimit) = none) : again.Replayable run ⟨run, failure⟩ :=
  ⟨[], (List.append_nil _).symm, fun _ _ halike _ => ⟨halike, hfailure.symm, rfl⟩⟩

/-- The last step of a run that is blocked stops the replay as well. -/
theorem replayable_blocked (hgrid : again.grid = setting.grid)
    (hcapture : setting.captureLog = true) {run : Run} {instruction : Instruction}
    {code : ErrorCode} (hcode : setting.obstacle? instruction run = some code) :
    again.Replayable run ((setting.advance instruction run).stop code) := by
  obtain ⟨hplain, hfatal⟩ := plain_of_obstacle hcode
  refine ⟨[entry instruction run], advance_log hcapture instruction, ?_⟩
  intro depth other halike hbudget
  have hreplay : replayOf [entry instruction run] = [instruction] :=
    List.filter_cons_of_pos hplain
  rw [hreplay] at hbudget ⊢
  have hroom : other.world.steps < again.stepLimit := UInt32.lt_iff_toNat_lt.2 hbudget
  rw [perform_all_cons, spend_plain hplain hroom, obstacle_alike hgrid halike, hcode]
  have hfailure : (some code).filter (!·.isLimit) = some code :=
    Option.filter_some_pos (by simp [hfatal])
  exact ⟨advance_alike hgrid halike instruction, hfailure.symm, advance_steps instruction hroom⟩

/-- A step that is not blocked is replayed if its instruction has no bodies, and left out if it has
some. -/
theorem Replayable.step (hgrid : again.grid = setting.grid) (hcapture : setting.captureLog = true)
    {run : Run} {instruction : Instruction} {outcome : Outcome}
    (hfree : setting.obstacle? instruction run = none)
    (h : again.Replayable (setting.advance instruction run) outcome) :
    again.Replayable run outcome := by
  obtain ⟨later, hlog, hlater⟩ := h
  refine ⟨entry instruction run :: later, ?_, ?_⟩
  · rw [hlog, advance_log hcapture, List.append_assoc, List.singleton_append]
  intro depth other halike hbudget
  by_cases hplain : instruction.isPlain = true
  · -- the replay takes the same step, from a state that is alike
    have hreplay : replayOf (entry instruction run :: later) = instruction :: replayOf later :=
      List.filter_cons_of_pos hplain
    rw [hreplay, List.length_cons] at hbudget ⊢
    have hroom : other.world.steps < again.stepLimit := UInt32.lt_iff_toNat_lt.2 (by omega)
    have hsteps : (again.advance instruction other).world.steps.toNat =
        other.world.steps.toNat + 1 := advance_steps instruction hroom
    have hnext := hlater depth (again.advance instruction other)
      (advance_alike hgrid halike instruction) (by omega)
    rw [hsteps, Nat.add_assoc, Nat.add_comm 1] at hnext
    rw [perform_all_cons, spend_plain hplain hroom, obstacle_alike hgrid halike, hfree]
    exact hnext
  · -- the replay stays where it is: only the step is charged to the run
    have hreplay : replayOf (entry instruction run :: later) = replayOf later :=
      List.filter_cons_of_neg hplain
    rw [hreplay] at hbudget ⊢
    exact hlater depth other (advance_bodies (Bool.not_eq_true _ ▸ hplain) halike) hbudget

/-- Whatever a run leads to is replayable. -/
theorem Leads.replayable (hgrid : again.grid = setting.grid) (hcapture : setting.captureLog = true)
    {run : Run} {outcome : Outcome} (h : Leads setting p run outcome) :
    again.Replayable run outcome := by
  induction h with
  | rest run | exhausted run | tooDeep run => exact replayable_here run rfl
  | blocked run instruction code _ _ hcode => exact replayable_blocked hgrid hcapture hcode
  | step run instruction outcome _ _ hfree _ ih => exact ih.step hgrid hcapture hfree

end Setting

/-! ### Whole runs -/

/-- The failure that stops the execution of a program, if one does, before the goal is looked at. -/
def Options.failure? (options : Options) (level : Level) (program : Program) : Option ErrorCode :=
  ((options.setting level).execute 0 program (.start level)).failure

/-- The instructions of a log that have no bodies, carried out on the same level with a budget that
suffices for them, lead to the same place with the same things still to be collected, one step for
each. The replay ends in a collision or at an unknown instruction exactly if the logged run did;
if that run was not stopped, or only by one of its limits, nothing stops the replay. -/
theorem simulate_replays (level : Level) (options again : Options) (program : Program)
    {budget : UInt32}
    (hbudget : (replayOf (simulate level { options with captureLog := true } program).log).length ≤
      budget.toNat) :
    let logged : Options := { options with captureLog := true }
    let limited : Options := { again with stepLimit := some budget }
    let original := simulate level logged program
    let replay := simulate level limited (replayOf original.log)
    replay.position = original.position ∧ replay.remaining = original.remaining ∧
    replay.steps.toNat = (replayOf original.log).length ∧
    (limited.failure? level (replayOf original.log) = some .collide ↔
      logged.failure? level program = some .collide) ∧
    (∀ kind, limited.failure? level (replayOf original.log) = some (.unsupported kind) ↔
      logged.failure? level program = some (.unsupported kind)) ∧
    (logged.failure? level program ∈ [none, some .stepLimit, some .loopDepth] →
      limited.failure? level (replayOf original.log) = none) := by
  intro logged limited original replay
  have hleads : Setting.Leads (logged.setting level) (fun _ => True) (.start level)
      ((logged.setting level).execute 0 program (.start level)) :=
    Setting.execute_leads (Instruction.everywhere_in_of_forall (fun _ => trivial) program) 0
      (.start level)
  have hgrid : (limited.setting level).grid = (logged.setting level).grid := rfl
  obtain ⟨later, hlog, hreplays⟩ := hleads.replayable hgrid rfl
  obtain rfl : original.log = later := hlog
  have hroom : (Run.start level).world.steps.toNat + (replayOf original.log).length ≤
      (limited.setting level).stepLimit.toNat := by
    rw [show (Run.start level).world.steps.toNat = 0 from rfl, Nat.zero_add]
    exact hbudget
  have h := hreplays 0 (.start level) ⟨rfl, rfl, rfl⟩ hroom
  rw [← Setting.execute_top] at h
  have hfailure : limited.failure? level (replayOf original.log) =
      (logged.failure? level program).filter (!·.isLimit) := h.failure
  refine ⟨h.world.position, h.world.remaining, h.steps.trans (Nat.zero_add _), ?_⟩
  rw [hfailure]
  rcases logged.failure? level program with _ | ⟨_ | _ | _ | _ | _⟩ <;>
    simp [Option.filter, ErrorCode.isLimit]

/-- Two tiles in a row, with an apple on the second. -/
def Level.orchard : Level where
  id := "orchard"
  name := "Orchard"
  width := 2
  height := 1
  tiles := [⟨0, 0, true, none⟩, ⟨1, 0, true, some "apple"⟩]
  start := ⟨0, 0, .east⟩
  goal := .none
  bestSteps := 2
  hints := []
  allowedBlocks := .empty
  comic := ""
  rewards := .none

/-- Going for the apple and on against the border is replayed without the branch and the loop. -/
theorem simulate_replays_orchard :
    let options : Options := { Options.ofDefaults 100 8 with captureLog := true }
    let program : Program :=
      [.branch (some .tileAheadWalkable) [.move] [], .loop 2 [.collect, .move]]
    let original := simulate .orchard options program
    let limited : Options := { options with stepLimit := some 3 }
    (replayOf original.log).length ≤ (3 : UInt32).toNat ∧
    replayOf original.log = [.move, .collect, .move] ∧
    (simulate .orchard limited (replayOf original.log)).position = ⟨1, 0, .east⟩ ∧
    (simulate .orchard limited (replayOf original.log)).remaining = 0 ∧
    limited.failure? .orchard (replayOf original.log) = some .collide := by
  intro options program original limited
  have hreplay : replayOf original.log = [.move, .collect, .move] := by decide
  have hbudget : (replayOf original.log).length ≤ (3 : UInt32).toNat := by decide
  obtain ⟨hposition, hremaining, -, hcollide, -, -⟩ :=
    simulate_replays .orchard options options program hbudget
  have hblocked : options.failure? .orchard program = some .collide := by decide
  refine ⟨hbudget, hreplay, ?_, ?_, hcollide.2 hblocked⟩
  · exact hposition.trans (by decide)
  · exact hremaining.trans (by decide)

end TileCourse
