import TileCourse.Proofs.Program.Tree
import TileCourse.Simulation.Run

/-!
# Runs as sequences of steps

The interpreter recurses through bodies and repetitions. `Setting.Leads` forgets that structure:
a run leads to an outcome by taking steps one after the other, each for an instruction of the
program, until nothing is left or something stops it. `perform_all_leads` says that every part of
a program is carried out in this way; what one step preserves then holds of whole runs by
induction on the sequence.
-/

namespace TileCourse

/-- Go on with the rest unless something has stopped the run. -/
def Outcome.andThen (first : Outcome) (rest : Run → Outcome) : Outcome :=
  match first with
  | ⟨run, none⟩ => rest run
  | stopped => stopped

/-- The same end of a run that has been changed. -/
def Outcome.mapRun (f : Run → Run) (outcome : Outcome) : Outcome := ⟨f outcome.run, outcome.failure⟩

namespace Setting

/-- A loop carries out its body, and then turns once less. -/
theorem iterate_succ (body : Run → Outcome) (n : Nat) (run : Run) :
    iterate body (n + 1) run = (body run).andThen (iterate body n) := rfl

/-- A list is carried out by its first instruction, and then the others. -/
theorem perform_all_cons (setting : Setting) (depth : Nat) (instruction : Instruction)
    (rest : Program) (run : Run) :
    setting.performAll depth (instruction :: rest) run =
      (setting.spend instruction (setting.act depth instruction) run).andThen
        (setting.performAll depth rest) := rfl

/-- The program itself lies in no body, so it is never too deep. -/
theorem execute_top (setting : Setting) (program : Program) (run : Run) :
    setting.execute 0 program run = setting.performAll 0 program run := by
  rw [execute, enter, if_neg (Nat.not_lt_zero _)]

/-! ### Changed runs

A change of the run that the parts of a program agree with is one that the whole agrees with. -/

section Changed

variable {f : Run → Run} {setting other : Setting}

/-- One part after another agrees with a change of the run if the parts do. -/
theorem and_then_map {first : Outcome} {rest changed : Run → Outcome}
    (h : ∀ run, changed (f run) = (rest run).mapRun f) :
    (first.mapRun f).andThen changed = (first.andThen rest).mapRun f := by
  obtain ⟨run, _ | code⟩ := first
  · exact h run
  · rfl

/-- A loop agrees with a change of the run if its body does. -/
theorem iterate_map {body changed : Run → Outcome}
    (h : ∀ run, changed (f run) = (body run).mapRun f) (n : Nat) (run : Run) :
    iterate changed n (f run) = (iterate body n run).mapRun f := by
  induction n generalizing run with
  | zero => rfl
  | succ n ih =>
      rw [iterate_succ, iterate_succ, h]
      exact and_then_map ih

/-- A body agrees with a change of the run if what is in it does. -/
theorem enter_map (hdepth : other.maxDepth = setting.maxDepth) {body changed : Run → Outcome}
    (depth : Nat) (h : ∀ run, changed (f run) = (body run).mapRun f) (run : Run) :
    other.enter depth changed (f run) = (setting.enter depth body run).mapRun f := by
  rw [enter, enter, hdepth]
  split
  · rfl
  · exact h run

/-- A step agrees with a change of the run if its charge and its effect do. -/
theorem spend_map (hlimit : other.stepLimit = setting.stepLimit)
    {instruction image : Instruction} {act changed : Run → Outcome} {run : Run}
    (hsteps : (f run).world.steps = run.world.steps)
    (hcharge : other.charge image (f run) = f (setting.charge instruction run))
    (h : run.world.steps < setting.stepLimit →
      changed (f (setting.charge instruction run)) =
        (act (setting.charge instruction run)).mapRun f) :
    other.spend image changed (f run) = (setting.spend instruction act run).mapRun f := by
  rw [spend, spend, hlimit, hsteps, hcharge]
  split
  · rfl
  · rename_i hroom
    exact h (UInt32.not_le.1 hroom)

/-- Whatever an instruction does by itself in one setting, it does to the changed run in the
other. -/
structure Matches (f : Run → Run) (other setting : Setting) : Prop where
  maxDepth : other.maxDepth = setting.maxDepth
  stepLimit : other.stepLimit = setting.stepLimit
  steps : ∀ run, (f run).world.steps = run.world.steps
  charge : ∀ instruction run,
    other.charge instruction (f run) = f (setting.charge instruction run)
  move : ∀ run, other.move (f run) = (setting.move run).mapRun f
  turn : ∀ side run, Setting.turn side (f run) = f (Setting.turn side run)
  pickUp : ∀ run, other.pickUp (f run) = f (setting.pickUp run)
  holds : ∀ run condition, other.holds (f run) condition = setting.holds run condition

mutual

/-- An instruction does to the changed run what it does to the run. -/
theorem Matches.act (h : Matches f other setting) (depth : Nat) :
    ∀ (instruction : Instruction) (run : Run),
      other.act depth instruction (f run) = (setting.act depth instruction run).mapRun f
  | .move, run => h.move run
  | .turn side, run => by
      rw [Setting.act, Setting.act, h.turn]
      rfl
  | .collect, run => by
      rw [Setting.act, Setting.act, h.pickUp]
      rfl
  | .loop times body, run => by
      rw [Setting.act, Setting.act]
      split
      · rfl
      · exact iterate_map (enter_map h.maxDepth _ (h.perform_all (depth + 1) body)) _ run
  | .branch none _ _, _ => rfl
  | .branch (some condition) whenTrue whenFalse, run => by
      rw [Setting.act, Setting.act, h.holds]
      split
      · exact enter_map h.maxDepth _ (h.perform_all (depth + 1) whenTrue) run
      · exact enter_map h.maxDepth _ (h.perform_all (depth + 1) whenFalse) run
  | .other _, _ => rfl

/-- A program does to the changed run what it does to the run. -/
theorem Matches.perform_all (h : Matches f other setting) (depth : Nat) :
    ∀ (program : Program) (run : Run),
      other.performAll depth program (f run) = (setting.performAll depth program run).mapRun f
  | [], _ => rfl
  | instruction :: rest, run => by
      rw [perform_all_cons, perform_all_cons,
        spend_map h.stepLimit (h.steps run) (h.charge instruction run)
          fun _ => h.act depth instruction _]
      exact and_then_map (h.perform_all depth rest)

end

/-- A whole program does to the changed run what it does to the run. -/
theorem Matches.execute (h : Matches f other setting) (depth : Nat) (program : Program)
    (run : Run) :
    other.execute depth program (f run) = (setting.execute depth program run).mapRun f :=
  enter_map h.maxDepth depth (h.perform_all depth program) run

end Changed

/-! ### Steps -/

/-- What an instruction does by itself, without its bodies. -/
def affect (setting : Setting) : Instruction → Run → Run
  | .move, run => (setting.move run).run
  | .turn side, run => turn side run
  | .collect, run => setting.pickUp run
  | _, run => run

/-- The failure with which an instruction by itself stops a run. -/
def obstacle? (setting : Setting) : Instruction → Run → Option ErrorCode
  | .move, run => if setting.grid.isWalkable run.world.position.ahead then none else some .collide
  | .other kind, _ => some (.ofKind kind)
  | _, _ => none

/-- The run after the step of an instruction and what the instruction does by itself. -/
def advance (setting : Setting) (instruction : Instruction) (run : Run) : Run :=
  setting.affect instruction (setting.charge instruction run)

/-- What an instruction does by itself does not show in the log. -/
@[simp] theorem affect_log (setting : Setting) (instruction : Instruction) (run : Run) :
    (setting.affect instruction run).log = run.log := by
  cases instruction with
  | move =>
      rw [affect, move]
      split <;> rfl
  | collect =>
      rw [affect, pickUp]
      split <;> rfl
  | turn | loop | branch | other => rfl

/-- What an instruction does by itself takes no more steps. -/
@[simp] theorem affect_steps (setting : Setting) (instruction : Instruction) (run : Run) :
    (setting.affect instruction run).world.steps = run.world.steps := by
  cases instruction with
  | move =>
      rw [affect, move]
      split <;> rfl
  | collect =>
      rw [affect, pickUp]
      split
      · simp only [Run.withWorld, World.collect]
        split <;> rfl
      · rfl
  | turn | loop | branch | other => rfl

/-- A run leads to an outcome by steps for instructions with the property `p`. -/
inductive Leads (setting : Setting) (p : Instruction → Prop) : Run → Outcome → Prop where
  | rest (run) : Leads setting p run run.goOn
  | exhausted (run) (h : setting.stepLimit ≤ run.world.steps) :
      Leads setting p run (run.stop .stepLimit)
  | tooDeep (run) : Leads setting p run (run.stop .loopDepth)
  | blocked (run instruction code) (hp : p instruction)
      (hlimit : run.world.steps < setting.stepLimit)
      (h : setting.obstacle? instruction run = some code) :
      Leads setting p run ((setting.advance instruction run).stop code)
  | step (run instruction outcome) (hp : p instruction)
      (hlimit : run.world.steps < setting.stepLimit)
      (h : setting.obstacle? instruction run = none)
      (hnext : Leads setting p (setting.advance instruction run) outcome) :
      Leads setting p run outcome

variable {setting : Setting} {p : Instruction → Prop}

/-- What follows a run that goes on follows the start of the run. -/
theorem Leads.trans {run middle : Run} {outcome : Outcome}
    (h : Leads setting p run middle.goOn) (hrest : Leads setting p middle outcome) :
    Leads setting p run outcome := by
  generalize hgo : middle.goOn = reached at h
  induction h with
  | rest run =>
      cases hgo
      exact hrest
  | exhausted | tooDeep | blocked => cases hgo
  | step run instruction reached hp hlimit h _ ih =>
      exact .step run instruction outcome hp hlimit h (ih hgo)

/-- One part after the other leads to an outcome if both parts do. -/
theorem Leads.and_then {run : Run} {first : Outcome} {rest : Run → Outcome}
    (hfirst : Leads setting p run first) (hrest : ∀ run, Leads setting p run (rest run)) :
    Leads setting p run (first.andThen rest) := by
  obtain ⟨middle, _ | code⟩ := first
  · exact Leads.trans hfirst (hrest middle)
  · exact hfirst

/-- A repeated part leads to its outcome if the part does. -/
theorem iterate_leads {body : Run → Outcome} (hbody : ∀ run, Leads setting p run (body run))
    (n : Nat) (run : Run) : Leads setting p run (iterate body n run) := by
  induction n generalizing run with
  | zero => exact .rest run
  | succ n ih =>
      rw [iterate_succ]
      exact (hbody run).and_then ih

/-- Entering a body leads to its outcome if the body does. -/
theorem enter_leads {depth : Nat} {body : Run → Outcome}
    (hbody : ∀ run, Leads setting p run (body run)) (run : Run) :
    Leads setting p run (setting.enter depth body run) := by
  unfold enter
  split
  · exact .tooDeep run
  · exact hbody run

/-- A move does what it does by itself, and stops the run if it is blocked. -/
theorem move_eq (run : Run) :
    setting.move run =
      ⟨setting.affect .move run, setting.obstacle? .move run⟩ := by
  by_cases hwalk : setting.grid.isWalkable run.world.position.ahead <;>
    simp [affect, move, obstacle?, hwalk, Run.goOn, Run.stop]

/-- Taking the step of an instruction does not change what stops it. -/
theorem obstacle_charge (instruction : Instruction) (run : Run) :
    setting.obstacle? instruction (setting.charge instruction run) =
      setting.obstacle? instruction run := by
  cases instruction <;> rfl

/-- An instruction whose step has been taken is carried out by its own effect, which may stop the
run, and then by steps for the instructions in its bodies. -/
inductive Acts (setting : Setting) (p : Instruction → Prop) (instruction : Instruction)
    (run : Run) : Outcome → Prop where
  | blocked (code) (h : setting.obstacle? instruction run = some code) :
      Acts setting p instruction run ((setting.advance instruction run).stop code)
  | free (outcome) (h : setting.obstacle? instruction run = none)
      (hnext : Leads setting p (setting.advance instruction run) outcome) :
      Acts setting p instruction run outcome

/-- Taking the step of an instruction and carrying it out leads to an outcome. -/
theorem Acts.spend {instruction : Instruction} {act : Run → Outcome} {run : Run}
    (hp : p instruction)
    (hact : Acts setting p instruction run (act (setting.charge instruction run))) :
    Leads setting p run (setting.spend instruction act run) := by
  unfold Setting.spend
  split
  · rename_i hlimit
    exact .exhausted run hlimit
  · rename_i hlimit
    have hlt : run.world.steps < setting.stepLimit := UInt32.not_le.1 hlimit
    generalize act (setting.charge instruction run) = outcome at hact ⊢
    cases hact with
    | blocked code hcode => exact .blocked run instruction code hp hlt hcode
    | free _ hfree hnext => exact .step run instruction _ hp hlt hfree hnext

mutual

/-- An instruction is carried out by steps for the instructions inside it. -/
theorem act_acts (depth : Nat) :
    ∀ {instruction : Instruction}, instruction.Everywhere p → ∀ run : Run,
      Acts setting p instruction run
        (setting.act depth instruction (setting.charge instruction run))
  | .move, hp, run => by
      rw [act, move_eq, obstacle_charge]
      cases h : setting.obstacle? .move run with
      | none => exact .free _ h (.rest _)
      | some code => exact .blocked code h
  | .turn side, hp, run => .free _ rfl (.rest _)
  | .collect, hp, run => .free _ rfl (.rest _)
  | .loop times body, hp, run => by
      refine .free _ rfl ?_
      rw [act]
      split
      · exact .rest _
      · exact iterate_leads (enter_leads (perform_all_leads (depth + 1) hp.2)) _ _
  | .branch none _ _, hp, run => .free _ rfl (.rest _)
  | .branch (some condition) whenTrue whenFalse, hp, run => by
      refine .free _ rfl ?_
      rw [act]
      split
      · exact enter_leads (perform_all_leads (depth + 1) hp.2.1) _
      · exact enter_leads (perform_all_leads (depth + 1) hp.2.2) _
  | .other kind, hp, run => .blocked _ rfl

/-- A list of instructions is carried out by steps for instructions in it. -/
theorem perform_all_leads (depth : Nat) :
    ∀ {program : Program}, Instruction.EverywhereIn p program → ∀ run : Run,
      Leads setting p run (setting.performAll depth program run)
  | [], _, run => .rest run
  | instruction :: rest, hp, run => by
      rw [perform_all_cons]
      exact ((act_acts depth hp.1 run).spend hp.1.self).and_then (perform_all_leads depth hp.2)

end

/-- A program is carried out by steps for instructions in it. -/
theorem execute_leads {program : Program} (hp : Instruction.EverywhereIn p program) (depth : Nat)
    (run : Run) : Leads setting p run (setting.execute depth program run) :=
  enter_leads (perform_all_leads depth hp) run

/-- Every instruction of a program is one. -/
theorem everywhere_in_true (program : Program) :
    Instruction.EverywhereIn (fun _ => True) program :=
  Instruction.everywhere_in_of_forall (fun _ => trivial) program

/-- Every step that is logged is one for an instruction with the property, if this holds of the
steps logged before. -/
theorem Leads.logged {run : Run} {outcome : Outcome} (h : Leads setting p run outcome)
    (hbefore : ∀ step ∈ run.log, p step.instruction) :
    ∀ step ∈ outcome.run.log, p step.instruction := by
  have hadvance {run : Run} {instruction : Instruction} (hp : p instruction)
      (hbefore : ∀ step ∈ run.log, p step.instruction) :
      ∀ step ∈ (setting.advance instruction run).log, p step.instruction := by
    intro step hstep
    rw [advance, affect_log, charge] at hstep
    dsimp only at hstep
    split at hstep
    · rcases Array.mem_push.1 hstep with hstep | rfl
      · exact hbefore step hstep
      · exact hp
    · exact hbefore step hstep
  induction h with
  | rest | exhausted | tooDeep => exact hbefore
  | blocked run instruction code hp => exact hadvance hp hbefore
  | step run instruction outcome hp _ _ _ ih => exact ih (hadvance hp hbefore)

end Setting

namespace Options

/-- A run on a level takes its steps for instructions of the program. -/
theorem leads_of {p : Instruction → Prop} {program : Program}
    (hp : Instruction.EverywhereIn p program) (options : Options) (level : Level) :
    (options.setting level).Leads p (.start level)
      ((options.setting level).execute 0 program (.start level)) :=
  Setting.execute_leads hp 0 (.start level)

/-- The run of a program on a level leads to its outcome. -/
theorem leads (options : Options) (level : Level) (program : Program) :
    (options.setting level).Leads (fun _ => True) (.start level)
      ((options.setting level).execute 0 program (.start level)) :=
  leads_of (Setting.everywhere_in_true program) options level

end Options

/-- Every logged step is one for an instruction of the program, with all that lies inside it. -/
theorem simulate_logged {p : Instruction → Prop} {program : Program}
    (hp : Instruction.EverywhereIn p program) (level : Level) (options : Options) :
    ∀ step ∈ (simulate level options program).log, step.instruction.Everywhere p := by
  intro step hstep
  have hleads := options.leads_of (Instruction.everywhere_in_everywhere hp) level
  exact hleads.logged (by simp [Run.start]) step (Array.mem_toList_iff.1 hstep)

end TileCourse
