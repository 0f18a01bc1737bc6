import TileCourse.Proofs.Simulation.Budget

/-!
# How runs end

A run is stopped by a failure, or it comes to its end and has reached the goal or missed it.
`simulate_ends` says what the result tells in each of these cases. The budget of a level that sets
one is part of its goal, so without another budget a run cannot miss this clause: `overrun_stopped`
says that whoever would need more steps is stopped instead.
-/

namespace TileCourse

/-- A run that ends at a point has done what a goal asks, as far as it asks for anything. -/
structure Goal.Reached (goal : Goal) (point : Point) (remaining steps : UInt32) : Prop where
  collected : goal.collectiblesRequired.isSome = true → remaining = 0
  target : ∀ target, goal.target = some target → target = point
  limit : ∀ limit, goal.stepLimit = some limit → steps ≤ limit

/-- A goal is met exactly if what it asks for is done. -/
theorem Goal.met_iff {goal : Goal} {point : Point} {remaining steps : UInt32} :
    goal.met point remaining steps = true ↔ goal.Reached point remaining steps := by
  have hcollected : goal.collectedMet remaining = true ↔
      (goal.collectiblesRequired.isSome = true → remaining = 0) := by
    unfold collectedMet
    cases goal.collectiblesRequired <;> simp
  have htarget : goal.targetMet point = true ↔
      ∀ target, goal.target = some target → target = point := by
    simp [targetMet, Option.all_eq_true]
  have hlimit : goal.limitMet steps = true ↔
      ∀ limit, goal.stepLimit = some limit → steps ≤ limit := by
    simp [limitMet, Option.all_eq_true]
  rw [met, Bool.and_eq_true, Bool.and_eq_true, hcollected, htarget, hlimit]
  constructor
  · intro h
    obtain ⟨⟨hcollected, htarget⟩, hlimit⟩ := h
    exact ⟨hcollected, htarget, hlimit⟩
  · intro h
    exact ⟨⟨h.collected, h.target⟩, h.limit⟩

/-- A success has a star at least. -/
theorem Level.star_rating_pos (level : Level) (steps remaining : UInt32) :
    1 ≤ level.starRating steps remaining := by
  unfold starRating
  split_ifs <;> decide

/-- A rating has at most three stars. -/
theorem Level.star_rating_le (level : Level) (steps remaining : UInt32) :
    level.starRating steps remaining ≤ 3 := by
  unfold starRating
  split_ifs <;> decide

/-- Nothing stops a run for having missed the goal. -/
theorem Setting.Leads.failure_ne {setting : Setting} {p : Instruction → Prop} {run : Run}
    {outcome : Outcome} (h : Leads setting p run outcome) :
    outcome.failure ≠ some .goalNotMet := by
  induction h with
  | rest | exhausted | tooDeep => simp [Run.goOn, Run.stop]
  | blocked run instruction code hp hlimit h =>
      cases instruction with
      | move =>
          rw [obstacle?] at h
          split at h <;> cases h
          simp [Run.stop]
      | other kind =>
          cases h
          simp [Run.stop, ErrorCode.ofKind]
      | turn | collect | loop | branch => cases h
  | step run instruction outcome hp hlimit h _ ih => exact ih

namespace Result

/-- What a result tells about a run, given the goal and the failure that stopped the run. -/
inductive Ends (goal : Goal) (result : Result) : Option ErrorCode → Prop where
  | stopped (code : ErrorCode) (hcode : code ≠ .goalNotMet) (hsuccess : result.success = false)
      (hstars : result.stars = 0) (herror : result.errorCode = some code) :
      Ends goal result (some code)
  | reached (hgoal : goal.Reached result.position.point result.remaining result.steps)
      (hsuccess : result.success = true) (hfew : 1 ≤ result.stars) (hmany : result.stars ≤ 3)
      (herror : result.errorCode = none) : Ends goal result none
  | missed (hgoal : ¬ goal.Reached result.position.point result.remaining result.steps)
      (hsuccess : result.success = false) (hstars : result.stars = 0)
      (herror : result.errorCode = some .goalNotMet) : Ends goal result none

namespace Ends

variable {goal : Goal} {result : Result} {failure : Option ErrorCode}

/-- A run succeeds exactly if there is no error. -/
theorem success_iff (h : result.Ends goal failure) :
    result.success = true ↔ result.errorCode = none := by
  cases h <;> simp [*]

/-- A run that does not succeed has no stars. -/
theorem starless (h : result.Ends goal failure) (hsuccess : result.success = false) :
    result.stars = 0 := by
  cases h with
  | stopped | missed => assumption
  | reached hgoal htrue => rw [hsuccess] at htrue; cases htrue

/-- A run succeeds exactly if it has one star to three. -/
theorem stars_iff (h : result.Ends goal failure) :
    result.success = true ↔ 1 ≤ result.stars ∧ result.stars ≤ 3 := by
  cases h with
  | stopped code hcode hsuccess hstars | missed hgoal hsuccess hstars =>
      rw [hsuccess, hstars]
      decide
  | reached hgoal hsuccess hfew hmany => exact iff_of_true hsuccess ⟨hfew, hmany⟩

/-- A run has at most three stars. -/
theorem stars_le (h : result.Ends goal failure) : result.stars ≤ 3 := by
  cases h with
  | stopped code hcode hsuccess hstars | missed hgoal hsuccess hstars =>
      rw [hstars]
      decide
  | reached hgoal hsuccess hfew hmany => exact hmany

/-- A run succeeds exactly if nothing stopped it and the goal is reached. -/
theorem reached_iff (h : result.Ends goal failure) : result.success = true ↔
    failure = none ∧ goal.Reached result.position.point result.remaining result.steps := by
  cases h <;> simp [*]

/-- A run that tells of a missed goal has not reached it. -/
theorem not_reached (h : result.Ends goal failure)
    (herror : result.errorCode = some .goalNotMet) :
    ¬ goal.Reached result.position.point result.remaining result.steps := by
  cases h with
  | stopped code hcode hsuccess hstars hother =>
      exact absurd (Option.some.inj (hother.symm.trans herror)) hcode
  | reached hgoal hsuccess hfew hmany hnone =>
      rw [hnone] at herror
      cases herror
  | missed hgoal => exact hgoal

end Ends

/-- A result tells how the run ended, without a word too much: a success by its stars and by the
absence of an error, and a goal that was missed only if something was left or the place is wrong. -/
structure Judged (result : Result) (level : Level) (options : Options) (program : Program) :
    Prop where
  success_iff : result.success = true ↔ result.errorCode = none
  stars_iff : result.success = true ↔ 1 ≤ result.stars ∧ result.stars ≤ 3
  starless : result.success = false → result.stars = 0
  /-- A success is a run that nothing has stopped, at an end where every clause holds. -/
  reached_iff : result.success = true ↔
    ((options.setting level).execute 0 program (.start level)).failure = none ∧
      level.goal.Reached result.position.point result.remaining result.steps
  missed : result.errorCode = some .goalNotMet →
    (∃ target, level.goal.target = some target ∧ target ≠ result.position.point) ∨
      level.goal.collectiblesRequired.isSome = true ∧ 0 < result.remaining
  /-- The goal's limit is never exceeded, and a run that would exceed it if it were allowed more
  steps is stopped by it. -/
  limited : ∀ limit, level.goal.stepLimit = some limit → result.steps ≤ limit ∧
    ∀ many, limit < (simulate level { options with stepLimit := some many } program).steps →
      result.errorCode = some .stepLimit

end Result

/-- Every run ends in one of three ways. -/
theorem simulate_ends (level : Level) (options : Options) (program : Program) :
    (simulate level options program).Ends level.goal
      ((options.setting level).execute 0 program (.start level)).failure := by
  have hfailure := (options.leads level program).failure_ne
  unfold simulate
  generalize (options.setting level).execute 0 program (.start level) = outcome at hfailure
  obtain ⟨run, _ | code⟩ := outcome
  · by_cases hmet : level.goal.met run.world.position.point run.world.remaining
      run.world.steps = true
    · have hverdict : level.verdict none run.world.position.point run.world.remaining
          run.world.steps = ⟨true, level.starRating run.world.steps run.world.remaining, none⟩ :=
        if_pos hmet
      have hstars : (Outcome.result ⟨run, none⟩ level).stars =
          level.starRating run.world.steps run.world.remaining := congrArg Verdict.stars hverdict
      exact .reached (Goal.met_iff.1 hmet) (congrArg Verdict.success hverdict)
        (hstars ▸ level.star_rating_pos _ _) (hstars ▸ level.star_rating_le _ _)
        (congrArg Verdict.errorCode hverdict)
    · have hverdict : level.verdict none run.world.position.point run.world.remaining
          run.world.steps = ⟨false, 0, some .goalNotMet⟩ := if_neg hmet
      exact .missed (fun hgoal => hmet (Goal.met_iff.2 hgoal))
        (congrArg Verdict.success hverdict) (congrArg Verdict.stars hverdict)
        (congrArg Verdict.errorCode hverdict)
  · exact .stopped code (fun hcode => hfailure (hcode ▸ rfl)) rfl rfl rfl

/-- No run has too many stars to be sent in. -/
theorem simulate_stars_le (level : Level) (options : Options) (program : Program) :
    (simulate level options program).stars ≤ 3 :=
  (simulate_ends level options program).stars_le

/-- A run is stopped by its budget if it would go on for longer with another one. -/
theorem overrun_stopped {level : Level} {options : Options} {program : Program} {many : UInt32}
    (h : options.budget level <
      (simulate level { options with stepLimit := some many } program).steps) :
    (simulate level options program).errorCode = some .stepLimit := by
  let loose : Options := { options with stepLimit := some many }
  have hmany : (simulate level loose program).steps ≤ many :=
    Setting.execute_steps_le level loose program
  have hle : options.budget level ≤ (loose.setting level).stepLimit :=
    UInt32.le_of_lt (UInt32.lt_of_lt_of_le h hmany)
  have hshort := Setting.execute_steps_le level options program
  have htruncates : Setting.Truncates (loose.setting level) (options.budget level)
      options.maxDepth ((options.setting level).execute 0 program (.start level))
      ((loose.setting level).execute 0 program (.start level)) :=
    Setting.execute_truncates hle (UInt64.le_refl _) 0 program (.start level)
  unfold simulate at h hshort ⊢
  generalize (options.setting level).execute 0 program (.start level) = short
    at hshort htruncates ⊢
  generalize (loose.setting level).execute 0 program (.start level) = long at h htruncates
  cases htruncates with
  | same => exact absurd hshort (UInt32.not_le.2 h)
  | outOfSteps => rfl
  | tooDeep run long hdepth => exact absurd hdepth (UInt64.lt_irrefl _)

/-- A run without a budget of its own is judged by the goal of the level. -/
theorem simulate_judged (level : Level) {options : Options} (program : Program)
    (hown : options.stepLimit = none) :
    (simulate level options program).Judged level options program := by
  have hends := simulate_ends level options program
  have hbudget : ∀ limit, level.goal.stepLimit = some limit → options.budget level = limit := by
    intro limit hlimit
    simp [Options.budget, hown, hlimit]
  have hsteps : ∀ limit, level.goal.stepLimit = some limit →
      (simulate level options program).steps ≤ limit := by
    intro limit hlimit
    rw [← hbudget limit hlimit]
    exact Setting.execute_steps_le level options program
  exact {
    success_iff := hends.success_iff
    stars_iff := hends.stars_iff
    starless := hends.starless
    reached_iff := hends.reached_iff
    missed := fun herror => by
      -- the limit is met, so it must be one of the other two clauses
      by_contra hnone
      obtain ⟨htarget, hcollected⟩ := not_or.1 hnone
      refine hends.not_reached herror ⟨fun hasked => ?_, fun target hasked => ?_, hsteps⟩
      · by_contra hleft
        exact hcollected ⟨hasked, UInt32.pos_iff_ne_zero.2 hleft⟩
      · by_contra helsewhere
        exact htarget ⟨target, hasked, helsewhere⟩
    limited := fun limit hlimit => by
      refine ⟨hsteps limit hlimit, fun many hmany => ?_⟩
      rw [← hbudget limit hlimit] at hmany
      exact overrun_stopped hmany }

end TileCourse
