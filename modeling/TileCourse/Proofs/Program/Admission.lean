import TileCourse.Program.Admission
import TileCourse.Proofs.Program.Tree

/-!
# Which programs are admitted

Admission goes through a program and stops at the first instruction that is not allowed.
`Instruction.preorder` lists the instructions of a program in the order of its text, each before
those inside it, and `Level.accept_outcomes` says what comes out, in terms of that list.
-/

namespace TileCourse

namespace Instruction

mutual

/-- An instruction, and after it the instructions inside it in the order of the text. -/
def preorder : Instruction → List Instruction
  | .loop times body => .loop times body :: preorderIn body
  | .branch condition whenTrue whenFalse =>
      .branch condition whenTrue whenFalse :: (preorderIn whenTrue ++ preorderIn whenFalse)
  | instruction => [instruction]

/-- The instructions of a list and those inside them, in the order of the text. -/
def preorderIn : List Instruction → List Instruction
  | [] => []
  | instruction :: rest => preorder instruction ++ preorderIn rest

end

variable {p : Instruction → Prop} {allowed : TextSet}

mutual

/-- A property holds everywhere in an instruction if it holds along the text. -/
theorem everywhere_iff_forall_preorder : ∀ {instruction : Instruction},
    Everywhere p instruction ↔ ∀ i ∈ preorder instruction, p i
  | .loop _ _ => by
      rw [Everywhere, preorder, List.forall_mem_cons, everywhere_in_iff_forall_preorder]
  | .branch _ _ _ => by
      rw [Everywhere, preorder, List.forall_mem_cons, List.forall_mem_append,
        everywhere_in_iff_forall_preorder, everywhere_in_iff_forall_preorder]
  | .move | .turn _ | .collect | .other _ => by simp [Everywhere, preorder]

/-- The instructions everywhere in a program are those that the list has. -/
theorem everywhere_in_iff_forall_preorder : ∀ {program : List Instruction},
    EverywhereIn p program ↔ ∀ i ∈ preorderIn program, p i
  | [] => by simp [EverywhereIn, preorderIn]
  | instruction :: rest => by
      rw [EverywhereIn, preorderIn, List.forall_mem_append, everywhere_iff_forall_preorder,
        everywhere_in_iff_forall_preorder]

end

mutual

/-- The walk over an instruction finds the first one that is not allowed: the instruction itself, or
the first inside it. -/
theorem first_forbidden_eq_find : ∀ instruction : Instruction,
    instruction.firstForbidden? allowed =
      ((preorder instruction).find? (·.blockCode ∉ allowed)).map blockCode
  | .loop times body => by
      by_cases hown : (loop times body).blockCode ∈ allowed
      · rw [firstForbidden?, if_pos hown, preorder, List.find?_cons_of_neg (by simpa using hown),
          first_forbidden_in_eq_find]
      · rw [firstForbidden?, if_neg hown, preorder, List.find?_cons_of_pos (by simpa using hown)]
        rfl
  | .branch condition whenTrue whenFalse => by
      by_cases hown : (branch condition whenTrue whenFalse).blockCode ∈ allowed
      · rw [firstForbidden?, if_pos hown, preorder, List.find?_cons_of_neg (by simpa using hown),
          List.find?_append, Option.map_or, first_forbidden_in_eq_find, first_forbidden_in_eq_find]
      · rw [firstForbidden?, if_neg hown, preorder, List.find?_cons_of_pos (by simpa using hown)]
        rfl
  | .move | .turn _ | .collect | .other _ => by
      rw [firstForbidden?, preorder]
      · split <;> simp [*]
      all_goals simp

/-- The search of a list ends at the first instruction along the text that is not allowed. -/
theorem first_forbidden_in_eq_find : ∀ program : List Instruction,
    firstForbiddenIn? allowed program =
      ((preorderIn program).find? (·.blockCode ∉ allowed)).map blockCode
  | [] => rfl
  | instruction :: rest => by
      rw [firstForbiddenIn?, preorderIn, List.find?_append, Option.map_or,
        first_forbidden_eq_find, first_forbidden_in_eq_find]

end

/-- Nothing in a program is forbidden exactly if every code in it is allowed. -/
theorem first_forbidden_in_eq_none_iff {program : List Instruction} :
    firstForbiddenIn? allowed program = none ↔ EverywhereIn (·.blockCode ∈ allowed) program := by
  rw [first_forbidden_in_eq_find, Option.map_eq_none_iff, List.find?_eq_none,
    everywhere_in_iff_forall_preorder]
  simp

/-- An instruction of a program is not allowed, and all that come before it in the text are. -/
def FirstForbidden (allowed : TextSet) (program : Program) (instruction : Instruction) : Prop :=
  instruction.blockCode ∉ allowed ∧ ∃ before after,
    preorderIn program = before ++ instruction :: after ∧
      ∀ earlier ∈ before, earlier.blockCode ∈ allowed

/-- The search of a program gives the code of its first forbidden instruction. -/
theorem first_forbidden_in_eq_some_iff {program : List Instruction} {code : String} :
    firstForbiddenIn? allowed program = some code ↔
      ∃ instruction, FirstForbidden allowed program instruction ∧ instruction.blockCode = code := by
  rw [first_forbidden_in_eq_find, Option.map_eq_some_iff]
  simp [FirstForbidden, List.find?_eq_some_iff_append]

end Instruction

namespace Level

/-- The outcome of an admission, by the first code that the walk finds. -/
theorem accept_by_first_forbidden (level : Level) (program : Program) :
    (level.accept program = .error .emptyProgram ↔ program = []) ∧
    (level.accept program = .ok () ↔ program ≠ [] ∧ (level.allowedBlocks.isEmpty = true ∨
      Instruction.firstForbiddenIn? level.allowedBlocks program = none)) ∧
    ∀ code, level.accept program = .error (.blockNotAllowed code) ↔
      level.allowedBlocks.isEmpty = false ∧
        Instruction.firstForbiddenIn? level.allowedBlocks program = some code := by
  rw [accept]
  cases program with
  | nil => simp [Instruction.firstForbiddenIn?]
  | cons instruction rest =>
      by_cases hfree : level.allowedBlocks.isEmpty = true
      · simp [hfree]
      · cases Instruction.firstForbiddenIn? level.allowedBlocks (instruction :: rest) <;>
          simp [hfree]

/-- A level accepts a program exactly if it is not empty and every code in it, at any depth, is
allowed, or all are. -/
theorem accept_eq_ok_iff {level : Level} {program : Program} :
    level.accept program = .ok () ↔ program ≠ [] ∧ (level.allowedBlocks.isEmpty = true ∨
      Instruction.EverywhereIn (·.blockCode ∈ level.allowedBlocks) program) := by
  rw [← Instruction.first_forbidden_in_eq_none_iff]
  exact (accept_by_first_forbidden level program).2.1

/-- A program is refused as empty exactly if it is, and it is accepted exactly if it is not empty and
nothing in it is forbidden. Any other program is refused for the first of its instructions, in the
order of its text, that is not allowed. -/
theorem accept_outcomes (level : Level) (program : Program) :
    (level.accept program = .error .emptyProgram ↔ program = []) ∧
    (level.accept program = .ok () ↔ program ≠ [] ∧ (level.allowedBlocks.isEmpty = true ∨
      Instruction.EverywhereIn (·.blockCode ∈ level.allowedBlocks) program)) ∧
    ∀ code, level.accept program = .error (.blockNotAllowed code) ↔
      level.allowedBlocks.isEmpty = false ∧ ∃ instruction,
        Instruction.FirstForbidden level.allowedBlocks program instruction ∧
          instruction.blockCode = code := by
  obtain ⟨hempty, -, hforbidden⟩ := accept_by_first_forbidden level program
  refine ⟨hempty, accept_eq_ok_iff, fun code => ?_⟩
  rw [hforbidden, Instruction.first_forbidden_in_eq_some_iff]

end Level

end TileCourse
