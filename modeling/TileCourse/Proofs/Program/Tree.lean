import TileCourse.Program.Basic

/-!
# The tree of a program

What holds of an instruction and of all instructions inside it, and how many bodies lie around
an instruction inside another.
-/

namespace TileCourse.Instruction

mutual

/-- A property holds of an instruction and of every instruction inside it. -/
def Everywhere (p : Instruction → Prop) : Instruction → Prop
  | .loop times body => p (.loop times body) ∧ EverywhereIn p body
  | .branch condition whenTrue whenFalse =>
      p (.branch condition whenTrue whenFalse) ∧ EverywhereIn p whenTrue ∧
        EverywhereIn p whenFalse
  | instruction => p instruction

/-- A property holds of every instruction in a list, at any depth. -/
def EverywhereIn (p : Instruction → Prop) : List Instruction → Prop
  | [] => True
  | instruction :: rest => Everywhere p instruction ∧ EverywhereIn p rest

end

mutual

/-- A relation holds between `depth` and an instruction, and between each instruction inside it and
the number of bodies that one lies in if the whole lies in `depth` of them. -/
def EverywhereAt (p : Nat → Instruction → Prop) (depth : Nat) : Instruction → Prop
  | .loop times body => p depth (.loop times body) ∧ EverywhereInAt p (depth + 1) body
  | .branch condition whenTrue whenFalse =>
      p depth (.branch condition whenTrue whenFalse) ∧ EverywhereInAt p (depth + 1) whenTrue ∧
        EverywhereInAt p (depth + 1) whenFalse
  | instruction => p depth instruction

/-- The same for every instruction in a list that lies in `depth` bodies. -/
def EverywhereInAt (p : Nat → Instruction → Prop) (depth : Nat) : List Instruction → Prop
  | [] => True
  | instruction :: rest => EverywhereAt p depth instruction ∧ EverywhereInAt p depth rest

end

/-- An instruction asks nothing about the world. -/
def Unconditional : Instruction → Prop
  | .branch (some _) _ _ => False
  | .move | .turn _ | .collect | .loop _ _ | .branch none _ _ | .other _ => True

mutual

/-- The greatest number of bodies of an instruction that lie around one inside it. -/
def nesting : Instruction → Nat
  | .loop _ body => bodyNesting body
  | .branch _ whenTrue whenFalse => max (bodyNesting whenTrue) (bodyNesting whenFalse)
  | _ => 0

/-- The same number for a body, which counts itself unless it is empty. -/
def bodyNesting : List Instruction → Nat
  | [] => 0
  | instruction :: rest => max (instruction.nesting + 1) (bodyNesting rest)

end

/-- The bodies of an instruction. -/
def bodies : Instruction → List (List Instruction)
  | .loop _ body => [body]
  | .branch _ whenTrue whenFalse => [whenTrue, whenFalse]
  | _ => []

variable {p q : Instruction → Prop}

/-- What holds everywhere in an instruction holds of the instruction. -/
theorem Everywhere.self {instruction : Instruction} (h : Everywhere p instruction) :
    p instruction := by
  cases instruction with
  | loop | branch => exact h.1
  | move | turn | collect | other => exact h

/-- A property holds everywhere in a list if it holds everywhere in each instruction of it. -/
theorem everywhere_in_iff {program : List Instruction} :
    EverywhereIn p program ↔ ∀ instruction ∈ program, Everywhere p instruction := by
  induction program with
  | nil => simp [EverywhereIn]
  | cons instruction rest ih => simp [EverywhereIn, ih]

/-- A property holds everywhere in an instruction if it holds of the instruction, and everywhere in
its bodies. -/
theorem everywhere_iff {instruction : Instruction} :
    Everywhere p instruction ↔
      p instruction ∧ ∀ body ∈ instruction.bodies, ∀ i ∈ body, Everywhere p i := by
  cases instruction with
  | loop | branch => simp [Everywhere, bodies, everywhere_in_iff]
  | move | turn | collect | other => simp [Everywhere, bodies]

/-- A body is nested as deeply as the deepest of its instructions, and counts itself. -/
theorem body_nesting_le_iff {body : List Instruction} {n : Nat} :
    bodyNesting body ≤ n ↔ ∀ instruction ∈ body, instruction.nesting + 1 ≤ n := by
  induction body with
  | nil => simp [bodyNesting]
  | cons instruction rest ih => rw [bodyNesting, Nat.max_le, ih, List.forall_mem_cons]

/-- An instruction is no deeper than the instructions in its bodies, and one level more. -/
theorem nesting_le_iff {instruction : Instruction} {n : Nat} :
    instruction.nesting ≤ n ↔ ∀ body ∈ instruction.bodies, ∀ i ∈ body, i.nesting + 1 ≤ n := by
  cases instruction with
  | loop => simp [nesting, bodies, body_nesting_le_iff]
  | branch =>
      rw [nesting, Nat.max_le, body_nesting_le_iff, body_nesting_le_iff]
      simp [bodies]
  | move | turn | collect | other => simp [nesting, bodies]

mutual

/-- A weaker property holds everywhere as well. -/
theorem Everywhere.mono (h : ∀ instruction, p instruction → q instruction) :
    ∀ {instruction : Instruction}, Everywhere p instruction → Everywhere q instruction
  | .loop _ _, hp => ⟨h _ hp.1, EverywhereIn.mono h hp.2⟩
  | .branch _ _ _, hp => ⟨h _ hp.1, EverywhereIn.mono h hp.2.1, EverywhereIn.mono h hp.2.2⟩
  | .move, hp | .turn _, hp | .collect, hp | .other _, hp => h _ hp

/-- What holds everywhere in a list makes all that follows from it hold there. -/
theorem EverywhereIn.mono (h : ∀ instruction, p instruction → q instruction) :
    ∀ {program : List Instruction}, EverywhereIn p program → EverywhereIn q program
  | [], _ => trivial
  | _ :: _, hp => ⟨Everywhere.mono h hp.1, EverywhereIn.mono h hp.2⟩

end

mutual

/-- Two properties that hold everywhere hold everywhere together. -/
theorem Everywhere.and : ∀ {instruction : Instruction}, Everywhere p instruction →
    Everywhere q instruction → Everywhere (fun i => p i ∧ q i) instruction
  | .loop _ _, hp, hq => ⟨⟨hp.1, hq.1⟩, EverywhereIn.and hp.2 hq.2⟩
  | .branch _ _ _, hp, hq =>
      ⟨⟨hp.1, hq.1⟩, EverywhereIn.and hp.2.1 hq.2.1, EverywhereIn.and hp.2.2 hq.2.2⟩
  | .move, hp, hq | .turn _, hp, hq | .collect, hp, hq | .other _, hp, hq => ⟨hp, hq⟩

/-- Two properties that hold everywhere in a list hold there together. -/
theorem EverywhereIn.and : ∀ {program : List Instruction}, EverywhereIn p program →
    EverywhereIn q program → EverywhereIn (fun i => p i ∧ q i) program
  | [], _, _ => trivial
  | _ :: _, hp, hq => ⟨Everywhere.and hp.1 hq.1, EverywhereIn.and hp.2 hq.2⟩

end

/-- Properties that agree where a third one holds agree everywhere in an instruction where that one
does. -/
theorem Everywhere.congr {r : Instruction → Prop} {instruction : Instruction}
    (h : ∀ i, r i → (p i ↔ q i)) (hr : Everywhere r instruction) :
    Everywhere p instruction ↔ Everywhere q instruction :=
  ⟨fun hp => (hr.and hp).mono fun i hi => (h i hi.1).1 hi.2,
    fun hq => (hr.and hq).mono fun i hi => (h i hi.1).2 hi.2⟩

mutual

/-- What holds everywhere in an instruction holds everywhere in the instructions inside it. -/
theorem Everywhere.everywhere :
    ∀ {instruction : Instruction}, Everywhere p instruction → Everywhere (Everywhere p) instruction
  | .loop _ _, hp => ⟨hp, everywhere_in_everywhere hp.2⟩
  | .branch _ _ _, hp =>
      ⟨hp, everywhere_in_everywhere hp.2.1, everywhere_in_everywhere hp.2.2⟩
  | .move, hp | .turn _, hp | .collect, hp | .other _, hp => hp

/-- What holds everywhere in a list holds everywhere in each instruction inside it. -/
theorem everywhere_in_everywhere :
    ∀ {program : List Instruction}, EverywhereIn p program → EverywhereIn (Everywhere p) program
  | [], _ => trivial
  | _ :: _, hp => ⟨Everywhere.everywhere hp.1, everywhere_in_everywhere hp.2⟩

end

section Depths

variable {r t : Nat → Instruction → Prop}

/-- What holds everywhere in an instruction holds of the instruction. -/
theorem EverywhereAt.self {depth : Nat} {instruction : Instruction}
    (h : EverywhereAt r depth instruction) : r depth instruction := by
  cases instruction with
  | loop | branch => exact h.1
  | move | turn | collect | other => exact h

mutual

/-- A weaker relation holds everywhere as well. -/
theorem EverywhereAt.mono (h : ∀ depth instruction, r depth instruction → t depth instruction)
    {depth : Nat} : ∀ {instruction : Instruction},
      EverywhereAt r depth instruction → EverywhereAt t depth instruction
  | .loop _ _, hr => ⟨h _ _ hr.1, EverywhereInAt.mono h hr.2⟩
  | .branch _ _ _, hr => ⟨h _ _ hr.1, EverywhereInAt.mono h hr.2.1, EverywhereInAt.mono h hr.2.2⟩
  | .move, hr | .turn _, hr | .collect, hr | .other _, hr => h _ _ hr

/-- A relation that holds everywhere in a list makes all that follows from it hold there. -/
theorem EverywhereInAt.mono (h : ∀ depth instruction, r depth instruction → t depth instruction)
    {depth : Nat} : ∀ {program : List Instruction},
      EverywhereInAt r depth program → EverywhereInAt t depth program
  | [], _ => trivial
  | _ :: _, hr => ⟨EverywhereAt.mono h hr.1, EverywhereInAt.mono h hr.2⟩

end

mutual

/-- What holds everywhere in an instruction holds everywhere in the instructions inside it. -/
theorem EverywhereAt.everywhere {depth : Nat} : ∀ {instruction : Instruction},
    EverywhereAt r depth instruction → EverywhereAt (EverywhereAt r) depth instruction
  | .loop _ _, hr => ⟨hr, EverywhereInAt.everywhere hr.2⟩
  | .branch _ _ _, hr => ⟨hr, EverywhereInAt.everywhere hr.2.1, EverywhereInAt.everywhere hr.2.2⟩
  | .move, hr | .turn _, hr | .collect, hr | .other _, hr => hr

/-- A relation that holds everywhere in a list holds everywhere in each instruction inside it. -/
theorem EverywhereInAt.everywhere {depth : Nat} : ∀ {program : List Instruction},
    EverywhereInAt r depth program → EverywhereInAt (EverywhereAt r) depth program
  | [], _ => trivial
  | _ :: _, hr => ⟨EverywhereAt.everywhere hr.1, EverywhereInAt.everywhere hr.2⟩

end

/-- A list is empty if none of its instructions may lie where it lies. -/
theorem EverywhereInAt.eq_nil {depth : Nat} {program : List Instruction}
    (h : EverywhereInAt r depth program) (hnone : ∀ instruction, ¬ r depth instruction) :
    program = [] := by
  cases program with
  | nil => rfl
  | cons instruction rest => exact absurd h.1.self (hnone instruction)

end Depths

mutual

/-- What holds of all instructions holds everywhere. -/
theorem everywhere_of_forall (h : ∀ instruction, p instruction) :
    ∀ instruction : Instruction, Everywhere p instruction
  | .loop _ body => ⟨h _, everywhere_in_of_forall h body⟩
  | .branch _ whenTrue whenFalse =>
      ⟨h _, everywhere_in_of_forall h whenTrue, everywhere_in_of_forall h whenFalse⟩
  | .move | .turn _ | .collect | .other _ => h _

/-- What holds of every instruction holds everywhere in a list. -/
theorem everywhere_in_of_forall (h : ∀ instruction, p instruction) :
    ∀ program : List Instruction, EverywhereIn p program
  | [] => trivial
  | instruction :: rest => ⟨everywhere_of_forall h instruction, everywhere_in_of_forall h rest⟩

end

end TileCourse.Instruction
