import TileCourse.Proofs.Simulation.Budget

/-!
# Loops as repeated lists

A list of instructions is carried out as its parts are, one after the other, so it does not matter
how a program is cut up. A loop whose step has been taken is carried out as the list of as many
copies of its body: repeating, stopping at the first failure and passing over an empty body all
come out as they do along that list. `execute_unrolls` says so from every state of a run.
-/

namespace TileCourse

namespace Outcome

/-- Going on with nothing leaves an outcome as it is. -/
@[simp] theorem and_then_go_on (first : Outcome) : first.andThen Run.goOn = first := by
  obtain ⟨run, _ | code⟩ := first <;> rfl

/-- Of three parts it does not matter which two are taken together. -/
theorem and_then_assoc (first : Outcome) (second third : Run → Outcome) :
    (first.andThen second).andThen third = first.andThen fun run => (second run).andThen third := by
  obtain ⟨run, _ | code⟩ := first <;> rfl

end Outcome

namespace Setting

variable {setting : Setting}

/-- The instructions of two lists are carried out one list after the other. -/
theorem perform_all_append (depth : Nat) (p q : Program) (run : Run) :
    setting.performAll depth (p ++ q) run =
      (setting.performAll depth p run).andThen (setting.performAll depth q) := by
  induction p generalizing run with
  | nil => rfl
  | cons instruction rest ih =>
      rw [List.cons_append, perform_all_cons, perform_all_cons, Outcome.and_then_assoc]
      exact congrArg _ (funext ih)

/-- Carrying out a list a number of times is carrying out the list of as many copies. -/
theorem iterate_perform_all (depth : Nat) (body : Program) (n : Nat) (run : Run) :
    iterate (setting.performAll depth body) n run =
      setting.performAll depth (List.replicate n body).flatten run := by
  induction n generalizing run with
  | zero => rfl
  | succ n ih =>
      rw [iterate_succ, List.replicate_succ, List.flatten_cons, perform_all_append]
      exact congrArg _ (funext ih)

/-- A list that does not lie too deep is carried out. -/
theorem execute_eq {depth : Nat} (hdepth : depth ≤ setting.maxDepth.toNat) (program : Program) :
    setting.execute depth program = setting.performAll depth program := by
  funext run
  rw [execute, enter, if_neg (Nat.not_lt.2 hdepth)]

/-- A list that lies too deep is refused as a whole. -/
theorem execute_too_deep {depth : Nat} (hdepth : setting.maxDepth.toNat < depth)
    (program : Program) (run : Run) : setting.execute depth program run = run.stop .loopDepth := by
  rw [execute, enter, if_pos hdepth]

/-- A program after another is carried out after it. -/
theorem execute_append (depth : Nat) (p q : Program) (run : Run) :
    setting.execute depth (p ++ q) run =
      (setting.execute depth p run).andThen (setting.execute depth q) := by
  by_cases hdepth : depth ≤ setting.maxDepth.toNat
  · rw [execute_eq hdepth, execute_eq hdepth, execute_eq hdepth]
    exact perform_all_append depth p q run
  · have hdeep : setting.maxDepth.toNat < depth := Nat.not_le.1 hdepth
    rw [execute_too_deep hdeep, execute_too_deep hdeep]
    rfl

/-- A loop whose step has been taken and whose body does not lie too deep is carried out as the
copies of its body. -/
theorem act_loop {depth : Nat} (hdepth : depth < setting.maxDepth.toNat) (times : UInt32)
    (body : Program) (run : Run) :
    setting.act depth (.loop times body) run =
      setting.execute (depth + 1) (List.replicate times.toNat body).flatten run := by
  have hbody : setting.enter (depth + 1) (setting.performAll (depth + 1) body) =
      setting.performAll (depth + 1) body := execute_eq hdepth body
  rw [execute_eq hdepth, act, hbody]
  cases body with
  | nil =>
      -- an empty body is passed over, and copies of nothing are nothing
      rw [List.flatten_replicate_nil]
      rfl
  | cons instruction rest => exact iterate_perform_all (depth + 1) (instruction :: rest) _ run

/-- A loop for which the budget has a step left takes that step, and is then carried out as the
copies of its body. -/
theorem execute_loop {depth : Nat} (hdepth : depth < setting.maxDepth.toNat) {run : Run}
    (hroom : run.world.steps < setting.stepLimit) (times : UInt32) (body : Program) :
    setting.execute depth [.loop times body] run =
      setting.execute (depth + 1) (List.replicate times.toNat body).flatten
        (setting.charge (.loop times body) run) := by
  have hlast : setting.performAll depth [] = Run.goOn := rfl
  rw [execute_eq (Nat.le_of_lt hdepth), perform_all_cons, hlast, Outcome.and_then_go_on, spend,
    if_neg (UInt32.not_le.2 hroom), act_loop hdepth]

end Setting

/-- From every state of a run, at every depth and within any limits: two lists of instructions as
one are carried out as the first and then, unless something stops it, the second. A loop that may
have its body carried out, and for which a step is left, takes that step, and from there on it is
the list of as many copies of its body one body deeper; whatever stops the one stops the other, in
the same state and with the same log. -/
theorem execute_unrolls (setting : Setting) (depth : Nat) (run : Run) :
    (∀ p q : Program, setting.execute depth (p ++ q) run =
      (setting.execute depth p run).andThen (setting.execute depth q)) ∧
    (depth < setting.maxDepth.toNat → run.world.steps < setting.stepLimit →
      ∀ (times : UInt32) (body : Program), setting.execute depth [.loop times body] run =
        setting.execute (depth + 1) (List.replicate times.toNat body).flatten
          (setting.charge (.loop times body) run)) :=
  ⟨fun p q => Setting.execute_append depth p q run,
    fun hdepth hroom => Setting.execute_loop hdepth hroom⟩

/-- A loop whose third round finds the budget used up stops where its unrolled body does. -/
theorem execute_unrolls_turning :
    let setting := (Options.ofDefaults 6 8).setting .single
    let run : Run := ⟨{ World.start .single with steps := 1 }, #[]⟩
    let unrolled : Program := [.turn .left, .collect, .turn .left, .collect, .turn .left, .collect]
    3 < setting.maxDepth.toNat ∧ run.world.steps < setting.stepLimit ∧
    setting.execute 3 [.loop 3 [.turn .left, .collect]] run =
      setting.execute 4 unrolled (setting.charge (.loop 3 [.turn .left, .collect]) run) ∧
    (setting.execute 3 [.loop 3 [.turn .left, .collect]] run).failure = some .stepLimit := by
  intro setting run unrolled
  have hdepth : 3 < setting.maxDepth.toNat := by decide
  have hroom : run.world.steps < setting.stepLimit := by decide
  exact ⟨hdepth, hroom, (execute_unrolls setting 3 run).2 hdepth hroom 3 [.turn .left, .collect],
    by decide⟩

end TileCourse
