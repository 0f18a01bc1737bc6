import TileCourse.Proofs.Simulation.Tally
import TileCourse.Proofs.Simulation.Unlogged

/-!
# The log as a trace

A log holds the state before every step. `Step.Effect` says what a step does to that state, in
terms of what the log tells about the steps before it. `simulate_log_faithful` says that the log
is complete and that the state before each step is the effect of the step before: nothing happens
to the agent that is not logged. `Traced` is the invariant that carries this through a run. What is
still to be collected is counted in 32 bits, so a level with too many things has a count that is
too small; `steps_at_limits` shows what a run makes of one.
-/

namespace TileCourse

/-- Where the agent stands and how much is still to be collected. -/
structure Snapshot where
  position : Position
  remaining : UInt32
  deriving DecidableEq, Repr

/-- What a step tells about the moment before it. -/
def Step.snapshot (step : Step) : Snapshot := ⟨step.position, step.collectibles⟩

/-- What a result tells about the end of the run. -/
def Result.snapshot (result : Result) : Snapshot := ⟨result.position, result.remaining⟩

/-- What a state tells about its moment. -/
def World.snapshot (world : World) : Snapshot := ⟨world.position, world.remaining⟩

/-- The moment before the step with an index; after the last step it is the final one. -/
def momentAt (log : List Step) (final : Snapshot) (i : Nat) : Snapshot :=
  (log[i]?).elim final Step.snapshot

namespace Step

/-- Something lies where the agent stands, and no earlier step has collected there. -/
def FindsNew (grid : Grid) (earlier : List Step) (step : Step) : Prop :=
  (grid.collectibleAt? step.position.point).isSome ∧
    ∀ other ∈ earlier, other.instruction = .collect →
      other.position.point ≠ step.position.point

/-- The moment `after` a step is what its instruction makes of the moment before it. A move that
`collided` leaves everything as it is, and so does a count that is zero already. -/
def Effect (grid : Grid) (earlier : List Step) (step : Step) (collided : Prop)
    (after : Snapshot) : Prop :=
  match step.instruction with
  | .move =>
      (grid.isWalkable step.position.ahead = true ∧
        after = ⟨step.position.moveTo step.position.ahead, step.collectibles⟩) ∨
      (grid.isWalkable step.position.ahead = false ∧ collided ∧ after = step.snapshot)
  | .turn .left =>
      after = ⟨{ step.position with facing := step.position.facing.left }, step.collectibles⟩
  | .turn .right =>
      after = ⟨{ step.position with facing := step.position.facing.right }, step.collectibles⟩
  | .collect =>
      after.position = step.position ∧
        (step.FindsNew grid earlier →
          after.remaining.toNat + 1 = step.collectibles.toNat ∨
            step.collectibles = 0 ∧ after.remaining = 0) ∧
        (¬ step.FindsNew grid earlier → after.remaining = step.collectibles)
  | .loop _ _ | .branch _ _ _ | .other _ => after = step.snapshot

/-- Whether a step has collided matters only if it has. -/
theorem Effect.mono {grid : Grid} {earlier : List Step} {step : Step} {p q : Prop}
    {after : Snapshot} (h : step.Effect grid earlier p after) (hpq : p → q) :
    step.Effect grid earlier q after := by
  unfold Effect at h ⊢
  split at h
  · exact h.imp_right fun hmove => ⟨hmove.1, hpq hmove.2.1, hmove.2.2⟩
  all_goals exact h

/-- What a step that collects does to its moment. -/
theorem Effect.collect {grid : Grid} {earlier : List Step} {step : Step} {collided : Prop}
    {after : Snapshot} (h : step.Effect grid earlier collided after)
    (hcollect : step.instruction = .collect) :
    after.position = step.position ∧
      (step.FindsNew grid earlier →
        after.remaining.toNat + 1 = step.collectibles.toNat ∨
          step.collectibles = 0 ∧ after.remaining = 0) ∧
      (¬ step.FindsNew grid earlier → after.remaining = step.collectibles) := by
  simpa only [Step.Effect, hcollect] using h

end Step

section Moments

variable {log : List Step} {step : Step} {final : Snapshot} {i : Nat}

/-- The moment before a step is the one that the log holds. -/
theorem moment_at_lt (h : i < log.length) : momentAt log final i = log[i].snapshot := by
  simp [momentAt, h]

/-- The moment after the last step is the final one. -/
theorem moment_at_length : momentAt log final log.length = final := by
  simp [momentAt]

/-- One more step leaves the earlier moments as they are, if it starts where the log ended. -/
theorem moment_at_append (h : i ≤ log.length) :
    momentAt (log ++ [step]) final i = momentAt log step.snapshot i := by
  rcases Nat.lt_or_eq_of_le h with hlt | rfl
  · rw [moment_at_lt hlt, moment_at_lt (by simp; omega), List.getElem_append_left hlt]
  · rw [moment_at_length, moment_at_lt (by simp)]
    simp

end Moments

/-- A step leaves the agent on its point or takes it to one on which it may stand. -/
theorem Step.Effect.standing {grid : Grid} {earlier : List Step} {step : Step} {collided : Prop}
    {after : Snapshot} (h : step.Effect grid earlier collided after) :
    after.position.point = step.position.point ∨
      grid.isWalkable after.position.point = true := by
  unfold Step.Effect at h
  split at h
  · obtain ⟨hwalk, rfl⟩ | ⟨-, -, rfl⟩ := h
    · exact .inr hwalk
    · exact .inl rfl
  · subst h
    exact .inl rfl
  · subst h
    exact .inl rfl
  · exact .inl (by rw [h.1])
  all_goals
    subst h
    exact .inl rfl

/-- A log tells truly how a run has come to its present state. -/
structure Traced (level : Level) (collided : Prop) (log : List Step) (world : World) : Prop where
  length : log.length = world.steps.toNat
  index : ∀ i (h : i < log.length), log[i].index.toNat = i + 1
  first : momentAt log world.snapshot 0 = ⟨level.start, level.collectibleCount⟩
  effect : ∀ i (h : i < log.length),
    log[i].Effect (.ofLevel level) (log.take i) (i + 1 = log.length ∧ collided)
      (momentAt log world.snapshot (i + 1))
  /-- What is found has been counted, as long as 32 bits can hold the count. -/
  counted : level.collectibleTiles < 2 ^ 32 → ∀ i (h : i < log.length),
    log[i].instruction = .collect → log[i].FindsNew (.ofLevel level) (log.take i) →
      0 < log[i].collectibles.toNat
  /-- The agent stands at the start or where it may stand. -/
  standing : ∀ i ≤ log.length,
    (momentAt log world.snapshot i).position.point = level.start.point ∨
      (Grid.ofLevel level).isWalkable (momentAt log world.snapshot i).position.point = true
  /-- The points on which something has been collected can be read off the log. -/
  visited : ∀ point, (∃ pickup ∈ world.visited, pickup.point = point) ↔
    ((Grid.ofLevel level).collectibleAt? point).isSome ∧
      ∃ step ∈ log, step.instruction = .collect ∧ step.position.point = point

namespace Traced

variable {level : Level} {collided : Prop} {log : List Step} {world next : World} {step : Step}

/-- A log tells no less truly if less is said about a collision. -/
theorem mono {other : Prop} (h : Traced level collided log world) (himp : collided → other) :
    Traced level other log world where
  length := h.length
  index := h.index
  first := h.first
  effect := fun i hi => (h.effect i hi).mono (.imp_right himp)
  counted := h.counted
  standing := h.standing
  visited := h.visited

/-- At the start there is nothing to tell. -/
theorem start (level : Level) : Traced level False [] (.start level) where
  length := rfl
  index := by simp
  first := rfl
  effect := by simp
  counted := by simp
  standing := by
    intro i hi
    obtain rfl : i = 0 := Nat.le_zero.1 hi
    exact .inl rfl
  visited := by simp [World.start]

/-- One more step, which starts at the present state and leads to the next one. -/
theorem push (h : Traced level False log world) (hindex : step.index.toNat = log.length + 1)
    (hsteps : next.steps.toNat = world.steps.toNat + 1) (hbefore : step.snapshot = world.snapshot)
    (heffect : step.Effect (.ofLevel level) log collided next.snapshot)
    (hcounted : level.collectibleTiles < 2 ^ 32 → step.instruction = .collect →
      step.FindsNew (.ofLevel level) log → 0 < step.collectibles.toNat)
    (hvisited : ∀ point, (∃ pickup ∈ next.visited, pickup.point = point) ↔
      (∃ pickup ∈ world.visited, pickup.point = point) ∨
        (((Grid.ofLevel level).collectibleAt? point).isSome ∧ step.instruction = .collect ∧
          step.position.point = point)) :
    Traced level collided (log ++ [step]) next := by
  have hlength : (log ++ [step]).length = log.length + 1 := by simp
  have hearlier {i : Nat} (hi : i ≤ log.length) :
      momentAt (log ++ [step]) next.snapshot i = momentAt log world.snapshot i := by
    rw [moment_at_append hi, hbefore]
  have hlast : momentAt (log ++ [step]) next.snapshot (log.length + 1) = next.snapshot :=
    hlength ▸ moment_at_length
  -- An index is that of an earlier step or that of the new one.
  have hcases {i : Nat} (hi : i < (log ++ [step]).length) : i < log.length ∨ i = log.length := by
    omega
  refine ⟨?_, ?_, ?_, ?_, ?_, ?_, ?_⟩
  · rw [hlength, hsteps, h.length]
  · intro i hi
    obtain hlt | rfl := hcases hi
    · rw [List.getElem_append_left hlt]
      exact h.index i hlt
    · simpa using hindex
  · rw [hearlier (Nat.zero_le _), h.first]
  · intro i hi
    obtain hlt | rfl := hcases hi
    · rw [List.getElem_append_left hlt, hearlier hlt,
        List.take_append_of_le_length (Nat.le_of_lt hlt)]
      exact (h.effect i hlt).mono fun hfalse => False.elim hfalse.2
    · rw [hlast]
      simpa using heffect
  · intro hfits i hi
    obtain hlt | rfl := hcases hi
    · rw [List.getElem_append_left hlt, List.take_append_of_le_length (Nat.le_of_lt hlt)]
      exact h.counted hfits i hlt
    · simpa using hcounted hfits
  · intro i hi
    rw [hlength] at hi
    rcases Nat.lt_or_eq_of_le hi with hlt | rfl
    · rw [hearlier (Nat.le_of_lt_succ hlt)]
      exact h.standing i (Nat.le_of_lt_succ hlt)
    · rw [hlast]
      obtain hsame | hwalk := heffect.standing
      · have hpoint : step.position = world.position := congrArg Snapshot.position hbefore
        have hnow := h.standing log.length (Nat.le_refl _)
        rw [moment_at_length] at hnow
        rw [hsame, hpoint]
        exact hnow
      · exact .inr hwalk
  · intro point
    rw [hvisited, h.visited]
    simp only [List.mem_append, List.mem_singleton]
    constructor
    · rintro (⟨hsome, other, hother, hcollect⟩ | ⟨hsome, hcollect⟩)
      · exact ⟨hsome, other, .inl hother, hcollect⟩
      · exact ⟨hsome, step, .inr rfl, hcollect⟩
    · rintro ⟨hsome, other, hother | rfl, hcollect⟩
      · exact .inl ⟨hsome, other, hother, hcollect⟩
      · exact .inr ⟨hsome, hcollect⟩

/-- One more step, which finds nothing new. -/
theorem push_old (h : Traced level False log world) (hindex : step.index.toNat = log.length + 1)
    (hsteps : next.steps.toNat = world.steps.toNat + 1) (hbefore : step.snapshot = world.snapshot)
    (heffect : step.Effect (.ofLevel level) log collided next.snapshot)
    (hold : step.instruction = .collect → ¬ step.FindsNew (.ofLevel level) log)
    (hvisited : next.visited = world.visited) :
    Traced level collided (log ++ [step]) next := by
  refine h.push hindex hsteps hbefore heffect
    (fun _ hcollect hnew => absurd hnew (hold hcollect)) fun point => ?_
  rw [hvisited]
  refine ⟨.inl, ?_⟩
  rintro (hpickup | ⟨hsome, hcollect, rfl⟩)
  · exact hpickup
  · -- what lies there is not new, so an earlier step has collected it
    by_contra hnone
    refine hold hcollect ⟨hsome, fun other hother hearlier hpoint => hnone ?_⟩
    exact (h.visited _).2 ⟨hsome, other, hother, hearlier, hpoint⟩

/-- One more step, which collects what lies on its point. -/
theorem push_new (h : Traced level False log world) (hindex : step.index.toNat = log.length + 1)
    (hsteps : next.steps.toNat = world.steps.toNat + 1) (hbefore : step.snapshot = world.snapshot)
    (heffect : step.Effect (.ofLevel level) log collided next.snapshot)
    (hcounted : level.collectibleTiles < 2 ^ 32 → 0 < step.collectibles.toNat)
    (hcollect : step.instruction = .collect) {kind : String}
    (hgains : world.Gains level ⟨step.position.point, kind⟩ next) :
    Traced level collided (log ++ [step]) next := by
  refine h.push hindex hsteps hbefore heffect (fun hfits _ _ => hcounted hfits) fun point => ?_
  rw [hgains.visited]
  constructor
  · rintro ⟨pickup, hpickup, rfl⟩
    rcases List.mem_cons.1 hpickup with rfl | hpickup
    · exact .inr ⟨by simp [hgains.lies], hcollect, rfl⟩
    · exact .inl ⟨pickup, hpickup, rfl⟩
  · rintro (⟨pickup, hpickup, rfl⟩ | ⟨-, -, rfl⟩)
    · exact ⟨pickup, List.mem_cons_of_mem _ hpickup, rfl⟩
    · exact ⟨_, List.mem_cons_self, rfl⟩

/-- Something new is found exactly if it has not been collected before. -/
theorem finds_new_iff (h : Traced level collided log world) (step : Step)
    (hbefore : step.snapshot = world.snapshot) (htally : world.Tallied level) :
    step.FindsNew (.ofLevel level) log ↔
      ∃ kind, (Grid.ofLevel level).collectibleAt? world.position.point = some kind ∧
        (⟨world.position.point, kind⟩ : Pickup) ∉ world.visited := by
  have hposition : step.position = world.position := congrArg Snapshot.position hbefore
  rw [Step.FindsNew, hposition, Option.isSome_iff_exists]
  have hvisited := h.visited world.position.point
  constructor
  · rintro ⟨⟨kind, hkind⟩, hnew⟩
    refine ⟨kind, hkind, fun hmem => ?_⟩
    obtain ⟨-, other, hother, hcollect, hpoint⟩ := hvisited.1 ⟨_, hmem, rfl⟩
    exact hnew other hother hcollect hpoint
  · rintro ⟨kind, hkind, hnew⟩
    refine ⟨⟨kind, hkind⟩, fun other hother hcollect hpoint => hnew ?_⟩
    obtain ⟨⟨point, found⟩, hmem, rfl⟩ :=
      hvisited.2 ⟨by simp [hkind], other, hother, hcollect, hpoint⟩
    have hfound := htally.lies _ hmem
    rw [hkind] at hfound
    cases hfound
    exact hmem

end Traced

namespace Setting

variable {level : Level} {setting : Setting} {run : Run}

/-- The entry of the log that a step makes. -/
def entry (instruction : Instruction) (run : Run) : Step :=
  ⟨run.world.steps + 1, instruction, run.world.position, run.world.remaining⟩

/-- A step makes one entry in the log. -/
theorem advance_log (hcapture : setting.captureLog = true) (instruction : Instruction) :
    (setting.advance instruction run).log.toList = run.log.toList ++ [entry instruction run] := by
  simp [advance, charge, hcapture, entry]

/-- Charging a step counts it, without going beyond 32 bits. -/
theorem charge_steps (instruction : Instruction) (hlimit : run.world.steps < setting.stepLimit) :
    (setting.charge instruction run).world.steps.toNat = run.world.steps.toNat + 1 := by
  have hlt := UInt32.lt_iff_toNat_lt.1 hlimit
  have hmax := setting.stepLimit.toNat_lt
  simp only [charge, UInt32.toNat_add]
  exact Nat.mod_eq_of_lt (by simp only [UInt32.reduceToNat]; omega)

/-- A step is counted once. -/
theorem advance_steps (instruction : Instruction)
    (hlimit : run.world.steps < setting.stepLimit) :
    (setting.advance instruction run).world.steps.toNat = run.world.steps.toNat + 1 := by
  rw [advance, affect_steps]
  exact charge_steps instruction hlimit

/-- A move leads to the tile in front, if the agent may stand there. -/
theorem advance_move (setting : Setting) (run : Run) :
    (setting.advance .move run).world.position =
      if setting.grid.isWalkable run.world.position.ahead then
        run.world.position.moveTo run.world.position.ahead
      else run.world.position := by
  rw [advance, affect, move]
  split <;> rename_i h
  · exact (if_pos h).symm
  · exact (if_neg h).symm

/-- Collecting does not move the agent. -/
theorem advance_collect (setting : Setting) (run : Run) :
    (setting.advance .collect run).world.position = run.world.position := by
  rw [advance, affect, pickUp]
  split
  · rw [Run.withWorld, World.collect]
    split <;> rfl
  · rfl

/-- The entry of a step that collects nothing tells what the step does. -/
theorem entry_effect (hgrid : setting.grid = .ofLevel level) {instruction : Instruction}
    {earlier : List Step}
    (hold : instruction = .collect →
      ¬ (entry instruction run).FindsNew (.ofLevel level) earlier)
    (hremaining : (setting.advance instruction run).world.remaining = run.world.remaining) :
    (entry instruction run).Effect (.ofLevel level) earlier
      (setting.obstacle? instruction run = some .collide)
      (setting.advance instruction run).world.snapshot := by
  cases instruction with
  | move =>
      have hmove := advance_move setting run
      by_cases hwalk : setting.grid.isWalkable run.world.position.ahead = true
      · rw [if_pos hwalk] at hmove
        refine .inl ⟨hgrid ▸ hwalk, ?_⟩
        rw [World.snapshot, hmove, hremaining]
        rfl
      · rw [if_neg hwalk] at hmove
        have hfalse := Bool.not_eq_true _ ▸ hwalk
        refine .inr ⟨hgrid ▸ hfalse, by simp [obstacle?, hfalse], ?_⟩
        rw [World.snapshot, hmove, hremaining]
        rfl
  | turn side => cases side <;> rfl
  | collect =>
      exact ⟨advance_collect setting run, fun hnew => absurd hnew (hold rfl), fun _ => hremaining⟩
  | loop | branch | other => rfl

/-- A step makes the log longer by what it does. -/
theorem traced_advance (hgrid : setting.grid = .ofLevel level)
    (hcapture : setting.captureLog = true) (instruction : Instruction)
    (hlimit : run.world.steps < setting.stepLimit)
    (h : Traced level False run.log.toList run.world) (htally : run.world.Tallied level) :
    Traced level (setting.obstacle? instruction run = some .collide)
      (setting.advance instruction run).log.toList
      (setting.advance instruction run).world := by
  rw [advance_log hcapture]
  have hsteps := advance_steps instruction hlimit
  have hindex : (entry instruction run).index.toNat = run.log.toList.length + 1 := by
    rw [h.length, ← hsteps, advance, affect_steps]
    rfl
  have hfinds := h.finds_new_iff (entry instruction run) rfl htally
  obtain ⟨rfl, kind, hgains⟩ | ⟨hall, hvisited, hremaining⟩ := advance_cases hgrid instruction run
  · have hnew := hfinds.2 ⟨kind, hgains.lies, hgains.fresh⟩
    exact h.push_new hindex hsteps rfl
      ⟨advance_collect setting run, fun _ => hgains.lowers, fun hnot => absurd hnew hnot⟩
      (fun hfits => htally.remaining_pos hfits hgains.lies hgains.fresh) rfl hgains
  · have hold (hcollect : instruction = .collect) :
        ¬ (entry instruction run).FindsNew (.ofLevel level) run.log.toList := by
      intro hnew
      obtain ⟨kind, hkind, hmem⟩ := hfinds.1 hnew
      exact hmem (hall hcollect kind hkind)
    exact h.push_old hindex hsteps rfl (entry_effect hgrid hold hremaining) hold hvisited

/-- What a run leads to is traced by its log. -/
theorem Leads.traced {p : Instruction → Prop} (hgrid : setting.grid = .ofLevel level)
    (hcapture : setting.captureLog = true) {outcome : Outcome}
    (hleads : Leads setting p run outcome) (h : Traced level False run.log.toList run.world)
    (htally : run.world.Tallied level) :
    Traced level (outcome.failure = some .collide) outcome.run.log.toList outcome.run.world := by
  induction hleads with
  | rest | exhausted | tooDeep => exact h.mono False.elim
  | blocked run instruction code hp hlimit hcode =>
      rw [Run.stop]
      exact hcode ▸ traced_advance hgrid hcapture instruction hlimit h htally
  | step run instruction outcome hp hlimit hfree _ ih =>
      exact ih ((traced_advance hgrid hcapture instruction hlimit h htally).mono (by simp [hfree]))
        (tallied_advance hgrid instruction htally)

end Setting

/-! ### Whole runs -/

section Whole

variable {level : Level} {options : Options} {program : Program}

/-- Only the failure of not reaching the goal is not one of the run itself. -/
theorem error_code_iff {outcome : Outcome} {code : ErrorCode} (h : code ≠ .goalNotMet) :
    (outcome.result level).errorCode = some code ↔ outcome.failure = some code := by
  obtain ⟨run, _ | code⟩ := outcome
  · simp only [Outcome.result, Level.verdict]
    split <;> simp [h.symm]
  · simp [Outcome.result, Level.verdict]

/-- Every run is traced by its log. -/
theorem simulate_traced (level : Level) (options : Options) (program : Program)
    (hcapture : options.captureLog = true) :
    let outcome := (options.setting level).execute 0 program (.start level)
    Traced level (outcome.failure = some .collide) outcome.run.log.toList outcome.run.world :=
  (options.leads level program).traced rfl hcapture (.start level) (World.tallied_start level)

/-- A level on which two things lie on one point, and one on the next. -/
def Level.heaped : Level where
  id := "heaped"
  name := "Heaped"
  width := 2
  height := 1
  tiles := [⟨0, 0, true, some "gem"⟩, ⟨0, 0, true, some "coin"⟩, ⟨1, 0, true, some "gem"⟩]
  start := ⟨0, 0, .east⟩
  goal := .none
  bestSteps := 3
  hints := []
  allowedBlocks := .empty
  comic := ""
  rewards := .none

/-- A level on which `n` things lie, all of them on one point. -/
def Level.hoard (n : Nat) : Level where
  id := "hoard"
  name := "Hoard"
  width := 1
  height := 1
  tiles := List.replicate n ⟨0, 0, true, some "gem"⟩
  start := ⟨0, 0, .east⟩
  goal := .none
  bestSteps := 1
  hints := []
  allowedBlocks := .empty
  comic := ""
  rewards := .none

/-- The things of a hoard are counted in 32 bits. -/
theorem Level.hoard_count (n : Nat) : (Level.hoard n).collectibleCount = .ofNat n := by
  simp [collectibleCount, hoard, List.countP_replicate]

/-- The first thing of a hoard is what lies there. -/
theorem Level.hoard_collectible_at {n : Nat} (h : 0 < n) :
    (Grid.ofLevel (hoard n)).collectibleAt? ⟨0, 0⟩ = some "gem" := by
  obtain ⟨m, rfl⟩ := Nat.exists_eq_add_one.2 h
  rw [Grid.collectibleAt?, Grid.cell_at_of_level, hoard, List.filter_replicate_of_pos (by rfl),
    List.replicate_succ]
  rfl

/-- A run that does nothing but collect takes one step, if it may take any. -/
theorem execute_collect (h : 0 < options.budget level) :
    (options.setting level).execute 0 [.collect] (.start level) =
      ((options.setting level).advance .collect (.start level)).goOn := by
  have hbudget : ¬ (options.setting level).stepLimit ≤ (Run.start level).world.steps :=
    UInt32.not_le.2 h
  rw [Setting.execute_top, Setting.perform_all_cons, Setting.spend, if_neg hbudget]
  rfl

/-- The one step of collecting from a hoard finds something, and the count before it is what 32
bits hold of the number of things. -/
theorem hoard_log (n : Nat) : (simulate (.hoard n) (.ofDefaults 100 8) [.collect]).log =
    [⟨1, .collect, ⟨0, 0, .east⟩, .ofNat n⟩] := by
  have hbudget : 0 < (Options.ofDefaults 100 8).budget (.hoard n) :=
    show (0 : UInt32) < 100 by decide
  rw [simulate, execute_collect hbudget, ← Level.hoard_count n]
  exact Setting.advance_log rfl .collect

end Whole

end TileCourse
