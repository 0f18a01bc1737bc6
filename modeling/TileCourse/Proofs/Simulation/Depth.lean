import TileCourse.Proofs.Simulation.Unrolling

/-!
# The limit of nesting

A list of instructions is refused on entry if it lies in more bodies than the limit allows. The
empty body of a loop is never entered, and neither is a branch without a condition, but the list
that a condition chooses is entered even if it is empty. So a program in which no instruction lies
too deep can be refused, and only in one place: at a branch with a condition that lies as deep as
an instruction may, whose lists are then both empty. `Setting.Refuses` is what is shown of every
part of a run, and `depth_limit_refuses` what follows for results.
-/

namespace TileCourse

/-- If the limit of nesting stops a part of a run, then right after the step of an instruction with
the property `p`. -/
def Setting.Refuses (setting : Setting) (p : Instruction → Prop) (outcome : Outcome) : Prop :=
  outcome.failure = some .loopDepth →
    ∃ instruction run, p instruction ∧ outcome.run = setting.charge instruction run

namespace Setting

variable {setting : Setting} {p : Instruction → Prop}

/-- A run that goes on has not been stopped by the limit of nesting. -/
theorem refuses_go_on (run : Run) : setting.Refuses p run.goOn :=
  fun hrefused => nomatch hrefused

/-- A run that another failure stops has not been stopped by the limit of nesting. -/
theorem refuses_stop (run : Run) {code : ErrorCode} (h : code ≠ .loopDepth) :
    setting.Refuses p (run.stop code) :=
  fun hrefused => absurd (Option.some.inj hrefused) h

/-- One part after another is refused only as the parts are. -/
theorem Refuses.and_then {outcome : Outcome} {rest : Run → Outcome}
    (h : setting.Refuses p outcome) (hrest : ∀ run, setting.Refuses p (rest run)) :
    setting.Refuses p (outcome.andThen rest) := by
  obtain ⟨run, _ | code⟩ := outcome
  · exact hrest run
  · exact h

/-- A loop is refused only as its body is. -/
theorem iterate_refuses {body : Run → Outcome} (h : ∀ run, setting.Refuses p (body run)) (n : Nat)
    (run : Run) : setting.Refuses p (iterate body n run) := by
  induction n generalizing run with
  | zero => exact refuses_go_on run
  | succ n ih =>
      rw [iterate_succ]
      exact (h run).and_then ih

/-- A body that is not too deep is refused only as what is in it is. -/
theorem enter_refuses {depth : Nat} (hdepth : depth ≤ setting.maxDepth.toNat)
    {body : Run → Outcome} (h : ∀ run, setting.Refuses p (body run)) (run : Run) :
    setting.Refuses p (setting.enter depth body run) := by
  rw [enter, if_neg (Nat.not_lt.2 hdepth)]
  exact h run

/-- A step is refused only as its effect is. -/
theorem spend_refuses {instruction : Instruction} {act : Run → Outcome} {run : Run}
    (h : setting.Refuses p (act (setting.charge instruction run))) :
    setting.Refuses p (setting.spend instruction act run) := by
  rw [spend]
  split
  · exact refuses_stop run (by simp)
  · exact h

/-- A branch with a condition that lies as deep as an instruction may is refused, whatever its
lists are. -/
theorem act_branch_limit (condition : Condition) (whenTrue whenFalse : Program) (run : Run) :
    setting.act setting.maxDepth.toNat (.branch (some condition) whenTrue whenFalse) run =
      run.stop .loopDepth := by
  have hdeep : setting.maxDepth.toNat < setting.maxDepth.toNat + 1 := Nat.lt_succ_self _
  rw [act]
  split
  · exact execute_too_deep hdeep whenTrue run
  · exact execute_too_deep hdeep whenFalse run

/-- A branch at the limit of nesting is refused right after its step, whatever is in it. -/
theorem execute_branch_limit (condition : Condition) (whenTrue whenFalse rest : Program) {run : Run}
    (hroom : run.world.steps < setting.stepLimit) :
    setting.execute setting.maxDepth.toNat (.branch (some condition) whenTrue whenFalse :: rest)
        run =
      (setting.charge (.branch (some condition) whenTrue whenFalse) run).stop .loopDepth := by
  rw [execute_eq (Nat.le_refl _), perform_all_cons, spend, if_neg (UInt32.not_le.2 hroom),
    act_branch_limit]
  rfl

/-- No instruction lies deeper than the limit, and one that lies as deep as that asks nothing or
has the property `p`. -/
def Fits (setting : Setting) (p : Instruction → Prop) (depth : Nat) (instruction : Instruction) :
    Prop :=
  depth ≤ setting.maxDepth.toNat ∧
    (depth = setting.maxDepth.toNat → instruction.Unconditional ∨ p instruction)

mutual

/-- If an instruction with its bodies fits into the limit, it is refused at most where the limit
is reached. -/
theorem act_refuses {depth : Nat} : ∀ {instruction : Instruction},
    instruction.EverywhereAt (setting.Fits p) depth → ∀ run : Run,
      setting.Refuses p (setting.act depth instruction (setting.charge instruction run))
  | .move, _, run => by
      rw [act, move]
      split
      · exact refuses_go_on _
      · exact refuses_stop _ (by simp)
  | .turn _, _, _ | .collect, _, _ | .branch none _ _, _, _ => refuses_go_on _
  | .other _, _, _ => refuses_stop _ (by simp [ErrorCode.ofKind])
  | .loop times [], _, run => by
      rw [act, List.isEmpty_nil, if_pos rfl]
      exact refuses_go_on _
  | .loop times (first :: rest), h, run => by
      obtain ⟨-, hbody⟩ := h
      -- only a body with an instruction in it is entered, and that instruction does not lie too deep
      have hdepth : depth + 1 ≤ setting.maxDepth.toNat := hbody.1.self.1
      rw [act, List.isEmpty_cons, if_neg Bool.false_ne_true]
      exact iterate_refuses (enter_refuses hdepth (perform_all_refuses hbody)) _ _
  | .branch (some condition) whenTrue whenFalse, h, run => by
      obtain ⟨⟨hdepth, hlimit⟩, htrue, hfalse⟩ := h
      rcases Nat.lt_or_eq_of_le hdepth with hlt | heq
      · rw [act]
        split
        · exact enter_refuses hlt (perform_all_refuses htrue) _
        · exact enter_refuses hlt (perform_all_refuses hfalse) _
      · -- the list that is chosen lies too deep even if there is nothing in it
        subst heq
        rw [act_branch_limit]
        exact fun _ => ⟨_, run, (hlimit rfl).resolve_left id, rfl⟩

/-- The same for a list of instructions. -/
theorem perform_all_refuses {depth : Nat} : ∀ {program : Program},
    Instruction.EverywhereInAt (setting.Fits p) depth program → ∀ run : Run,
      setting.Refuses p (setting.performAll depth program run)
  | [], _, run => refuses_go_on run
  | _ :: _, h, _ => by
      rw [perform_all_cons]
      exact (spend_refuses (act_refuses h.1 _)).and_then (perform_all_refuses h.2)

end

/-- A program that fits the limit is refused only at an instruction with the property. -/
theorem execute_refuses {program : Program}
    (h : Instruction.EverywhereInAt (setting.Fits p) 0 program) (run : Run) :
    setting.Refuses p (setting.execute 0 program run) :=
  enter_refuses (Nat.zero_le _) (perform_all_refuses h) run

/-- What an instruction adds to a log comes last. -/
theorem charge_log_last (hcapture : setting.captureLog = true) (instruction : Instruction)
    (run : Run) : (setting.charge instruction run).log.toList.getLast?.map Step.instruction =
      some instruction := by
  simp [charge, hcapture]

end Setting

namespace Instruction

/-- Where no instruction lies deeper than the limit, one that lies as deep as that and asks
something has two empty lists. -/
theorem EverywhereInAt.fits {setting : Setting} {depth : Nat} {program : List Instruction}
    (h : EverywhereInAt (fun depth _ => depth ≤ setting.maxDepth.toNat) depth program) :
    EverywhereInAt (setting.Fits fun i => ∃ condition, i = .branch (some condition) [] []) depth
      program := by
  refine h.everywhere.mono fun depth instruction hdepth => ⟨hdepth.self, fun heq => ?_⟩
  subst heq
  have hdeep (_ : Instruction) : ¬ setting.maxDepth.toNat + 1 ≤ setting.maxDepth.toNat :=
    Nat.not_succ_le_self _
  cases instruction with
  | move | turn | collect | loop | other => exact .inl trivial
  | branch condition whenTrue whenFalse =>
      obtain ⟨-, htrue, hfalse⟩ := hdepth
      obtain rfl := htrue.eq_nil hdeep
      obtain rfl := hfalse.eq_nil hdeep
      cases condition with
      | none => exact .inl trivial
      | some condition => exact .inr ⟨condition, rfl⟩

end Instruction

/-- A program in which no instruction lies in more bodies than the limit allows, and none that asks
something lies in as many, is never refused for its nesting, however often its bodies are repeated
and whichever lists are chosen. If only the first is known, a run that is refused has just taken
the step of a branch with a condition, between two empty lists; for wherever a branch with a
condition lies as deep as the limit, carrying it out ends in the refusal. -/
theorem depth_limit_refuses (level : Level) (options : Options) :
    let limit := options.maxDepth.toNat
    let setting := options.setting level
    (∀ program : Program,
      Instruction.EverywhereInAt
        (fun depth i => depth ≤ limit ∧ (depth = limit → i.Unconditional)) 0 program →
      (simulate level options program).errorCode ≠ some .loopDepth) ∧
    (∀ program : Program,
      Instruction.EverywhereInAt (fun depth _ => depth ≤ limit) 0 program →
      options.captureLog = true →
      (simulate level options program).errorCode = some .loopDepth →
      ∃ condition, (simulate level options program).log.getLast?.map Step.instruction =
        some (.branch (some condition) [] [])) ∧
    ∀ (condition : Condition) (whenTrue whenFalse rest : Program) (run : Run),
      run.world.steps < setting.stepLimit →
      setting.execute limit (.branch (some condition) whenTrue whenFalse :: rest) run =
        (setting.charge (.branch (some condition) whenTrue whenFalse) run).stop .loopDepth := by
  have hcode : ErrorCode.loopDepth ≠ .goalNotMet := by simp
  refine ⟨fun program h herror => ?_, fun program h hcapture herror => ?_,
    fun condition whenTrue whenFalse rest run hroom =>
      Setting.execute_branch_limit condition whenTrue whenFalse rest hroom⟩
  · have hfits : Instruction.EverywhereInAt ((options.setting level).Fits fun _ => False) 0
        program :=
      h.mono fun _ _ hdepth => ⟨hdepth.1, fun heq => .inl (hdepth.2 heq)⟩
    obtain ⟨-, -, hnone, -⟩ := Setting.execute_refuses hfits _ ((error_code_iff hcode).1 herror)
    exact hnone
  · have hfits : Instruction.EverywhereInAt ((options.setting level).Fits fun i =>
        ∃ condition, i = .branch (some condition) [] []) 0 program := h.fits
    obtain ⟨-, before, ⟨condition, rfl⟩, hrun⟩ :=
      Setting.execute_refuses hfits _ ((error_code_iff hcode).1 herror)
    refine ⟨condition, ?_⟩
    rw [simulate, Outcome.result, hrun]
    exact Setting.charge_log_last hcapture _ before

/-- Loops in loops, with a question in the innermost whose answer makes no difference. -/
def Program.shaft : Nat → Program
  | 0 => [.branch (some .tileAheadWalkable) [] []]
  | n + 1 => [.loop 1 (shaft n)]

/-- The question lies in all the loops, and nothing lies deeper. -/
theorem Program.shaft_within {depth n limit : Nat} (h : depth + n ≤ limit) :
    Instruction.EverywhereInAt (fun depth _ => depth ≤ limit) depth (shaft n) := by
  induction n generalizing depth with
  | zero => exact ⟨⟨h, trivial, trivial⟩, trivial⟩
  | succ n ih => exact ⟨⟨Nat.le_trans (Nat.le_add_right _ _) h, ih (by omega)⟩, trivial⟩

/-- With two bodies allowed, a loop without a body may stand in both, but a question only in one. -/
theorem depth_limit_refuses_turning :
    let options := Options.ofDefaults 200 2
    let limit := options.maxDepth.toNat
    let program : Program :=
      [.loop 2 [.loop 3 [.turn .left, .loop 5 []], .branch (some .tileAheadWalkable)
        [.turn .left] []]]
    let question := Instruction.branch (some .tileAheadWalkable) [] []
    let setting := options.setting .single
    Instruction.EverywhereInAt
      (fun depth i => depth ≤ limit ∧ (depth = limit → i.Unconditional)) 0 program ∧
    (simulate .single options program).errorCode ≠ some .loopDepth ∧
    Instruction.EverywhereInAt (fun depth _ => depth ≤ limit) 0 (Program.shaft 2) ∧
    (simulate .single options (Program.shaft 2)).errorCode = some .loopDepth ∧
    (∃ condition, (simulate .single options (Program.shaft 2)).log.getLast?.map Step.instruction =
      some (.branch (some condition) [] [])) ∧
    setting.execute limit [question] (.start .single) =
      (setting.charge question (.start .single)).stop .loopDepth := by
  intro options limit program question setting
  have hprogram : Instruction.EverywhereInAt
      (fun depth i => depth ≤ limit ∧ (depth = limit → i.Unconditional)) 0 program := by
    simp [program, limit, options, Options.ofDefaults, Instruction.EverywhereInAt,
      Instruction.EverywhereAt, Instruction.Unconditional]
  have hshaft : Instruction.EverywhereInAt (fun depth _ => depth ≤ limit) 0 (Program.shaft 2) :=
    Program.shaft_within (by decide)
  have hrefused : (simulate .single options (Program.shaft 2)).errorCode = some .loopDepth := by
    decide
  obtain ⟨hnever, hwhere, hlimit⟩ := depth_limit_refuses .single options
  exact ⟨hprogram, hnever program hprogram, hshaft, hrefused, hwhere _ hshaft rfl hrefused,
    hlimit _ [] [] [] (.start .single) (by decide)⟩

/-- It is not true that a run is only refused where an instruction lies in more bodies than the
limit allows: a question in ten loops is refused, as the list that it chooses would be the
eleventh body. -/
theorem not_depth_limit_refuses :
    ¬∀ (level : Level) (options : Options) (program : Program),
      Instruction.EverywhereInAt (fun depth _ => depth ≤ options.maxDepth.toNat) 0 program →
      (simulate level options program).errorCode ≠ some .loopDepth := by
  intro hall
  have hwithin : Instruction.EverywhereInAt
      (fun depth _ => depth ≤ (Options.ofDefaults 200 10).maxDepth.toNat) 0 (Program.shaft 10) :=
    Program.shaft_within (by decide)
  exact hall .single (.ofDefaults 200 10) (Program.shaft 10) hwithin (by decide)

end TileCourse
