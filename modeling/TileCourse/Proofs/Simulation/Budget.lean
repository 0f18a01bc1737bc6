import TileCourse.Proofs.Simulation.Trace

/-!
# Budgets cut runs short

Two runs that differ only in their limits go through the same states until one of them meets a
limit that the other does not have. `Setting.Truncates` is that relation between their outcomes,
and `perform_all_truncates` shows it for every part of a program. `simulate_truncates` says what
it means for results: a tighter run is the beginning of a looser one.
-/

namespace TileCourse

/-- A run is a beginning of an outcome: its log is the beginning of the log. -/
structure Run.Begins (run : Run) (outcome : Outcome) : Prop where
  log : run.log.toList <+: outcome.run.log.toList
  steps : run.world.steps ≤ outcome.run.world.steps

namespace Setting

variable {setting : Setting} {p : Instruction → Prop}

/-- A step that is charged begins what its effect leads to. -/
theorem advance_begins (instruction : Instruction) {run : Run} {outcome : Outcome}
    (h : (setting.advance instruction run).Begins outcome) :
    (setting.charge instruction run).Begins outcome where
  log := by simpa [advance] using h.log
  steps := by simpa [advance] using h.steps

/-- A run is a beginning of what follows its next step. -/
theorem charge_begins {instruction : Instruction} {run : Run} {outcome : Outcome}
    (hlimit : run.world.steps < setting.stepLimit)
    (h : (setting.charge instruction run).Begins outcome) : run.Begins outcome where
  log := by
    refine List.IsPrefix.trans ?_ h.log
    rw [charge]
    split <;> simp
  steps := by
    refine UInt32.le_trans ?_ h.steps
    have hsteps : (setting.charge instruction run).world.steps.toNat =
        run.world.steps.toNat + 1 := charge_steps instruction hlimit
    exact UInt32.le_iff_toNat_le.2 (by omega)

/-- A run is a beginning of every outcome it leads to. -/
theorem Leads.begins {run : Run} {outcome : Outcome} (h : Leads setting p run outcome) :
    run.Begins outcome := by
  induction h with
  | rest | exhausted | tooDeep => exact ⟨List.prefix_rfl, UInt32.le_refl _⟩
  | blocked run instruction code hp hlimit h =>
      exact charge_begins hlimit (advance_begins instruction ⟨List.prefix_rfl, UInt32.le_refl _⟩)
  | step run instruction outcome hp hlimit h _ ih =>
      exact charge_begins hlimit (advance_begins instruction ih)

/-- No run takes more steps than its budget allows. -/
theorem Leads.steps_le {run : Run} {outcome : Outcome} (h : Leads setting p run outcome)
    (hrun : run.world.steps ≤ setting.stepLimit) :
    outcome.run.world.steps ≤ setting.stepLimit := by
  induction h with
  | rest | exhausted | tooDeep => exact hrun
  | blocked run instruction code hp hlimit h =>
      have hsteps := advance_steps instruction hlimit
      exact UInt32.le_iff_toNat_le.2 (hsteps ▸ UInt32.lt_iff_toNat_lt.1 hlimit)
  | step run instruction outcome hp hlimit h _ ih =>
      have hsteps := advance_steps instruction hlimit
      exact ih (UInt32.le_iff_toNat_le.2 (hsteps ▸ UInt32.lt_iff_toNat_lt.1 hlimit))

/-- The same setting with other limits. -/
def limited (setting : Setting) (stepLimit : UInt32) (maxDepth : UInt64) : Setting :=
  { setting with stepLimit, maxDepth }

/-- The outcome `short` of a run with tighter limits against the outcome `long` of the same run
with the limits `loose`: the same, or cut short where the budget ends or a body lies too deep. -/
inductive Truncates (loose : Setting) (stepLimit : UInt32) (maxDepth : UInt64) :
    Outcome → Outcome → Prop where
  | same (outcome) : Truncates loose stepLimit maxDepth outcome outcome
  | outOfSteps (run : Run) (instruction long) (hlimit : stepLimit ≤ run.world.steps)
      (hloose : run.world.steps < loose.stepLimit)
      (hlong : (loose.charge instruction run).Begins long) :
      Truncates loose stepLimit maxDepth (run.stop .stepLimit) long
  | tooDeep (run : Run) (long) (hdepth : maxDepth < loose.maxDepth) (hlong : run.Begins long) :
      Truncates loose stepLimit maxDepth (run.stop .loopDepth) long

variable {stepLimit : UInt32} {maxDepth : UInt64}

/-- What begins an outcome begins all that follows it. -/
theorem begins_and_then {run : Run} {first : Outcome} {rest : Run → Outcome}
    (h : run.Begins first) (hrest : ∀ run, Leads setting p run (rest run)) :
    run.Begins (first.andThen rest) := by
  obtain ⟨middle, _ | code⟩ := first
  · have hmiddle := (hrest middle).begins
    exact ⟨h.log.trans hmiddle.log, UInt32.le_trans h.steps hmiddle.steps⟩
  · exact h

/-- One part after another is cut short as the parts are. -/
theorem Truncates.and_then {short long : Outcome} {tight loose : Run → Outcome}
    (h : Truncates setting stepLimit maxDepth short long)
    (hrest : ∀ run, Truncates setting stepLimit maxDepth (tight run) (loose run))
    (hloose : ∀ run, Leads setting p run (loose run)) :
    Truncates setting stepLimit maxDepth (short.andThen tight) (long.andThen loose) := by
  cases h with
  | same =>
      obtain ⟨run, _ | code⟩ := short
      · exact hrest run
      · exact .same _
  | outOfSteps run instruction long hlimit hmore hlong =>
      exact .outOfSteps run instruction _ hlimit hmore (begins_and_then hlong hloose)
  | tooDeep run long hdepth hlong =>
      exact .tooDeep run _ hdepth (begins_and_then hlong hloose)

/-- A loop is cut short as its body is. -/
theorem iterate_truncates {tight loose : Run → Outcome}
    (h : ∀ run, Truncates setting stepLimit maxDepth (tight run) (loose run))
    (hloose : ∀ run, Leads setting p run (loose run)) (n : Nat) (run : Run) :
    Truncates setting stepLimit maxDepth (iterate tight n run) (iterate loose n run) := by
  induction n generalizing run with
  | zero => exact .same _
  | succ n ih =>
      rw [iterate_succ, iterate_succ]
      exact (h run).and_then ih (iterate_leads hloose n)

/-- A body is cut short if what is in it is, or by a smaller limit of nesting. -/
theorem enter_truncates {tight loose : Run → Outcome} (hmaxDepth : maxDepth ≤ setting.maxDepth)
    (depth : Nat) (h : ∀ run, Truncates setting stepLimit maxDepth (tight run) (loose run))
    (hloose : ∀ run, Leads setting p run (loose run)) (run : Run) :
    Truncates setting stepLimit maxDepth
      ((setting.limited stepLimit maxDepth).enter depth tight run)
      (setting.enter depth loose run) := by
  have hle := UInt64.le_iff_toNat_le.1 hmaxDepth
  by_cases htight : maxDepth.toNat < depth
  · have hlimited : (setting.limited stepLimit maxDepth).maxDepth.toNat < depth := htight
    rw [enter, if_pos hlimited]
    by_cases hdeep : setting.maxDepth.toNat < depth
    · rw [enter, if_pos hdeep]
      exact .same _
    · exact .tooDeep run _ (UInt64.lt_iff_toNat_lt.2 (by omega)) (enter_leads hloose run).begins
  · rw [enter, enter, if_neg (show ¬ setting.maxDepth.toNat < depth by omega),
      if_neg (show ¬ (setting.limited stepLimit maxDepth).maxDepth.toNat < depth from htight)]
    exact h run

/-- What an instruction is carried out by begins with its step. -/
theorem Acts.begins {instruction : Instruction} {run : Run} {outcome : Outcome}
    (h : Acts setting p instruction run outcome) :
    (setting.charge instruction run).Begins outcome := by
  cases h with
  | blocked code => exact advance_begins instruction ⟨List.prefix_rfl, UInt32.le_refl _⟩
  | free _ _ hnext => exact advance_begins instruction hnext.begins

/-- An instruction is cut short before its step, or in the course of it. -/
theorem spend_truncates {instruction : Instruction} {tight loose : Run → Outcome}
    (hstepLimit : stepLimit ≤ setting.stepLimit) {run : Run}
    (h : Truncates setting stepLimit maxDepth (tight (setting.charge instruction run))
      (loose (setting.charge instruction run)))
    (hloose : Acts setting p instruction run (loose (setting.charge instruction run))) :
    Truncates setting stepLimit maxDepth
      ((setting.limited stepLimit maxDepth).spend instruction tight run)
      (setting.spend instruction loose run) := by
  by_cases htight : stepLimit ≤ run.world.steps
  · rw [spend, if_pos (show (setting.limited stepLimit maxDepth).stepLimit ≤ _ from htight)]
    by_cases hlimit : setting.stepLimit ≤ run.world.steps
    · rw [spend, if_pos hlimit]
      exact .same _
    · rw [spend, if_neg hlimit]
      exact .outOfSteps run instruction _ htight (UInt32.not_le.1 hlimit) hloose.begins
  · have hlimit : ¬ setting.stepLimit ≤ run.world.steps := fun hle =>
      htight (UInt32.le_trans hstepLimit hle)
    rw [spend, spend, if_neg hlimit,
      if_neg (show ¬ (setting.limited stepLimit maxDepth).stepLimit ≤ _ from htight)]
    exact h

mutual

/-- Tighter limits cut an instruction whose step has been taken short in its bodies. -/
theorem act_truncates (hstepLimit : stepLimit ≤ setting.stepLimit)
    (hmaxDepth : maxDepth ≤ setting.maxDepth) (depth : Nat) :
    ∀ (instruction : Instruction) (run : Run), Truncates setting stepLimit maxDepth
      ((setting.limited stepLimit maxDepth).act depth instruction run)
      (setting.act depth instruction run)
  | .move, _ | .turn _, _ | .collect, _ | .branch none _ _, _ | .other _, _ => .same _
  | .loop times body, run => by
      have hbody := enter_truncates hmaxDepth (depth + 1)
        (perform_all_truncates hstepLimit hmaxDepth (depth + 1) body)
        (perform_all_leads (depth + 1) (everywhere_in_true body))
      rw [act, act]
      split
      · exact .same _
      · exact iterate_truncates hbody
          (enter_leads (perform_all_leads (depth + 1) (everywhere_in_true body))) _ _
  | .branch (some condition) whenTrue whenFalse, run => by
      have hbody (body : Program) (h : ∀ run, Truncates setting stepLimit maxDepth
          ((setting.limited stepLimit maxDepth).performAll (depth + 1) body run)
          (setting.performAll (depth + 1) body run)) :=
        enter_truncates hmaxDepth (depth + 1) h
          (perform_all_leads (depth + 1) (everywhere_in_true body)) run
      rw [act, act]
      by_cases hholds : setting.holds run condition = true
      · rw [if_pos hholds,
          if_pos (show (setting.limited stepLimit maxDepth).holds run condition = true from hholds)]
        exact hbody whenTrue (perform_all_truncates hstepLimit hmaxDepth (depth + 1) whenTrue)
      · rw [if_neg hholds,
          if_neg (show ¬ (setting.limited stepLimit maxDepth).holds run condition = true
            from hholds)]
        exact hbody whenFalse (perform_all_truncates hstepLimit hmaxDepth (depth + 1) whenFalse)

/-- Tighter limits cut a list of instructions short. -/
theorem perform_all_truncates (hstepLimit : stepLimit ≤ setting.stepLimit)
    (hmaxDepth : maxDepth ≤ setting.maxDepth) (depth : Nat) :
    ∀ (program : Program) (run : Run), Truncates setting stepLimit maxDepth
      ((setting.limited stepLimit maxDepth).performAll depth program run)
      (setting.performAll depth program run)
  | [], _ => .same _
  | instruction :: rest, run => by
      have htrue : instruction.Everywhere fun _ => True :=
        Instruction.everywhere_of_forall (fun _ => trivial) instruction
      rw [perform_all_cons, perform_all_cons]
      refine (spend_truncates hstepLimit ?_ (act_acts depth htrue run)).and_then
        (perform_all_truncates hstepLimit hmaxDepth depth rest)
        (perform_all_leads depth (everywhere_in_true rest))
      exact act_truncates hstepLimit hmaxDepth depth instruction (setting.charge instruction run)

end

/-- Tighter limits cut a whole run short. -/
theorem execute_truncates (hstepLimit : stepLimit ≤ setting.stepLimit)
    (hmaxDepth : maxDepth ≤ setting.maxDepth) (depth : Nat) (program : Program) (run : Run) :
    Truncates setting stepLimit maxDepth
      ((setting.limited stepLimit maxDepth).execute depth program run)
      (setting.execute depth program run) :=
  enter_truncates hmaxDepth depth (perform_all_truncates hstepLimit hmaxDepth depth program)
    (perform_all_leads depth (everywhere_in_true program)) run

/-- A budget is never overdrawn. -/
theorem execute_steps_le (level : Level) (options : Options) (program : Program) :
    (simulate level options program).steps ≤ options.budget level :=
  (options.leads level program).steps_le (UInt32.le_iff_toNat_le.2 (Nat.zero_le _))

/-- Where the budget ends, the longer log has an entry for the next step. -/
theorem begins_get_elem (hcapture : setting.captureLog = true) {instruction : Instruction}
    {run : Run} {long : Outcome} (h : (setting.charge instruction run).Begins long) :
    ∃ hlt : run.log.toList.length < long.run.log.toList.length,
      long.run.log.toList[run.log.toList.length] = entry instruction run := by
  obtain ⟨rest, hrest⟩ := h.log
  have hlog : (setting.charge instruction run).log.toList =
      run.log.toList ++ [entry instruction run] := by
    simp [charge, hcapture, entry]
  rw [hlog, List.append_assoc] at hrest
  simp only [← hrest]
  exact ⟨by simp, by simp⟩

/-- What it means for the results if one outcome truncates another. -/
theorem Truncates.results {short long : Outcome} (level : Level)
    (h : Truncates setting stepLimit maxDepth short long) (hcapture : setting.captureLog = true)
    (hsteps : short.run.world.steps ≤ stepLimit)
    (hlength : short.run.log.toList.length = short.run.world.steps.toNat) :
    (short.result level).log <+: (long.result level).log ∧
    ((short.result level).errorCode ≠ some .stepLimit →
      (short.result level).errorCode ≠ some .loopDepth → short.result level = long.result level) ∧
    (maxDepth = setting.maxDepth →
      (stepLimit < (long.result level).steps →
        (short.result level).errorCode = some .stepLimit ∧
        (short.result level).steps = stepLimit ∧
        (short.result level).log = (long.result level).log.take stepLimit.toNat ∧
        ∃ hlt : stepLimit.toNat < (long.result level).log.length,
          (short.result level).position = (long.result level).log[stepLimit.toNat].position ∧
          (short.result level).remaining =
            (long.result level).log[stepLimit.toNat].collectibles) ∧
      ((long.result level).steps ≤ stepLimit → short.result level = long.result level)) := by
  cases h with
  | same =>
      refine ⟨List.prefix_rfl, fun _ _ => rfl, fun _ => ⟨fun hlt => ?_, fun _ => rfl⟩⟩
      exact absurd hsteps (UInt32.not_le.2 hlt)
  | outOfSteps run instruction long hlimit hmore hbegins =>
      have hrun : run.Begins long := charge_begins hmore hbegins
      have hspent : run.world.steps = stepLimit := UInt32.le_antisymm hsteps hlimit
      -- The longer run has an entry for the step that the shorter one cannot pay.
      obtain ⟨hlt, hentry⟩ := begins_get_elem hcapture hbegins
      have htoNat : run.log.toList.length = stepLimit.toNat := hspent ▸ hlength
      refine ⟨hrun.log, fun hcode => absurd rfl hcode, fun _ => ⟨fun _ => ?_, fun hle => ?_⟩⟩
      · refine ⟨rfl, hspent, ?_, htoNat ▸ hlt, ?_⟩
        · rw [← htoNat]
          exact List.prefix_iff_eq_take.1 hrun.log
        · simp only [← htoNat]
          exact ⟨(congrArg Step.position hentry).symm, (congrArg Step.collectibles hentry).symm⟩
      · have hnext : (setting.charge instruction run).world.steps.toNat =
            run.world.steps.toNat + 1 := charge_steps instruction hmore
        have hcharged := UInt32.le_iff_toNat_le.1 hbegins.steps
        have htight := UInt32.le_iff_toNat_le.1 hle
        rw [hspent] at hnext
        exact absurd (Nat.le_trans hcharged htight) (by omega)
  | tooDeep run long hless hbegins =>
      refine ⟨hbegins.log, fun _ hdeep => absurd rfl hdeep, ?_⟩
      rintro rfl
      exact absurd hless (UInt64.lt_irrefl _)

end Setting

/-- Budgets only truncate a run. A run with tighter limits takes no more steps than its budget
allows, and its log begins the log of the looser run; unless a limit ends it, the two results are
the same. If only the budgets differ, the tighter run stops exactly where its budget ends, in the
state that the longer log has for the next step, or is the same run if it needs no more. -/
theorem simulate_truncates (level : Level) (options : Options) (program : Program)
    {few many : UInt32} {shallow deep : UInt64} (hsteps : few ≤ many) (hdepth : shallow ≤ deep) :
    let short := simulate level
      { options with captureLog := true, stepLimit := some few, maxDepth := shallow } program
    let long := simulate level
      { options with captureLog := true, stepLimit := some many, maxDepth := deep } program
    short.steps ≤ few ∧ short.log <+: long.log ∧
    (short.errorCode ≠ some .stepLimit → short.errorCode ≠ some .loopDepth → short = long) ∧
    (shallow = deep →
      (few < long.steps → short.errorCode = some .stepLimit ∧ short.steps = few ∧
        short.log = long.log.take few.toNat ∧
        ∃ h : few.toNat < long.log.length, short.position = long.log[few.toNat].position ∧
          short.remaining = long.log[few.toNat].collectibles) ∧
      (long.steps ≤ few → short = long)) := by
  let tight : Options :=
    { options with captureLog := true, stepLimit := some few, maxDepth := shallow }
  let loose : Options :=
    { options with captureLog := true, stepLimit := some many, maxDepth := deep }
  have hle : (simulate level tight program).steps ≤ few :=
    Setting.execute_steps_le level tight program
  have htruncates : Setting.Truncates (loose.setting level) few shallow
      ((tight.setting level).execute 0 program (.start level))
      ((loose.setting level).execute 0 program (.start level)) :=
    Setting.execute_truncates hsteps hdepth 0 program (.start level)
  exact ⟨hle, htruncates.results level rfl hle (simulate_traced level tight program rfl).length⟩

/-- A level with a single tile. -/
def Level.single : Level where
  id := "single"
  name := "Single"
  width := 1
  height := 1
  tiles := [⟨0, 0, true, none⟩]
  start := ⟨0, 0, .north⟩
  goal := .none
  bestSteps := 1
  hints := []
  allowedBlocks := .empty
  comic := ""
  rewards := .none

/-- Turning round on one tile is cut after the first of its four steps. -/
theorem simulate_truncates_turning :
    let run := fun limit => simulate .single
      { Options.ofDefaults 100 8 with captureLog := true, stepLimit := some limit, maxDepth := 8 }
      [.loop 3 [.turn .left]]
    (1 : UInt32) ≤ 100 ∧ (8 : UInt64) ≤ 8 ∧ (run 1).steps = 1 ∧ (run 1).log = (run 100).log.take 1 ∧
      (run 100).steps = 4 := by
  intro run
  have hfew : (1 : UInt32) ≤ 100 := by decide
  have hdepth : (8 : UInt64) ≤ 8 := by decide
  obtain ⟨-, -, -, hcut⟩ := simulate_truncates .single (.ofDefaults 100 8) [.loop 3 [.turn .left]]
    hfew hdepth
  have hlong : (run 100).steps = 4 := by decide
  obtain ⟨-, hsteps, hlog, -⟩ := (hcut rfl).1 (by decide)
  exact ⟨hfew, hdepth, hsteps, hlog, hlong⟩

end TileCourse
