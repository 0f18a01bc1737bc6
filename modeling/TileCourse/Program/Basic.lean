import TileCourse.Text.Blank

/-!
# Programs

A program is a list of instructions for an agent on a grid of tiles. Loops and branches hold lists
of instructions of their own, so a program is a tree. A word that names no instruction is kept as
one of an unknown kind: whether that is an error depends on what is done with the program.
-/

namespace TileCourse

/-- The side to which the agent turns. -/
inductive Side where
  | left
  | right
  deriving DecidableEq, Repr

/-- What a branch asks about the world. -/
inductive Condition where
  /-- The tile in front of the agent can be walked on. -/
  | tileAheadWalkable
  /-- Something is still to be collected. -/
  | collectiblesRemaining
  deriving DecidableEq, Repr

/-- An instruction. -/
inductive Instruction where
  /-- Go to the tile in front. -/
  | move
  /-- Turn on the spot. -/
  | turn (side : Side)
  /-- Pick up what lies on the tile. -/
  | collect
  /-- Carry out a list of instructions a number of times. -/
  | loop (times : UInt32) (body : List Instruction)
  /-- Carry out one of two lists of instructions; without a condition, neither. -/
  | branch (condition : Option Condition) (whenTrue whenFalse : List Instruction)
  /-- An instruction of an unknown kind. -/
  | other (kind : String)
  deriving Repr, Inhabited

/-- A program. -/
abbrev Program : Type := List Instruction

namespace Instruction

mutual

/-- Whether two instructions are equal. -/
def same : Instruction → Instruction → Bool
  | .move, .move => true
  | .turn a, .turn b => a == b
  | .collect, .collect => true
  | .loop m a, .loop n b => m == n && sameAll a b
  | .branch c a b, .branch d a' b' => c == d && sameAll a a' && sameAll b b'
  | .other a, .other b => a == b
  | _, _ => false

/-- Whether two lists of instructions are equal. -/
def sameAll : List Instruction → List Instruction → Bool
  | [], [] => true
  | a :: as, b :: bs => same a b && sameAll as bs
  | _, _ => false

end

mutual

/-- Instructions that compare as the same are equal. -/
theorem eq_of_same : ∀ {a b : Instruction}, same a b = true → a = b
  | .move, b, h => by cases b <;> simp_all [same]
  | .turn _, b, h => by cases b <;> simp_all [same]
  | .collect, b, h => by cases b <;> simp_all [same]
  | .loop m body, b, h => by
    cases b with
    | loop n body' =>
      simp only [same, Bool.and_eq_true, beq_iff_eq] at h
      rw [h.1, eq_of_same_all h.2]
    | _ => simp [same] at h
  | .branch c x y, b, h => by
    cases b with
    | branch d x' y' =>
      simp only [same, Bool.and_eq_true, beq_iff_eq] at h
      rw [h.1.1, eq_of_same_all h.1.2, eq_of_same_all h.2]
    | _ => simp [same] at h
  | .other _, b, h => by cases b <;> simp_all [same]

/-- Lists of instructions that compare as the same are equal. -/
theorem eq_of_same_all : ∀ {as bs : List Instruction}, sameAll as bs = true → as = bs
  | [], bs, h => by cases bs <;> simp_all [sameAll]
  | a :: as, bs, h => by
    cases bs with
    | nil => simp [sameAll] at h
    | cons b bs =>
      simp only [sameAll, Bool.and_eq_true] at h
      rw [eq_of_same h.1, eq_of_same_all h.2]

end

mutual

/-- An instruction compares as the same as itself. -/
theorem same_self : ∀ a : Instruction, same a a = true
  | .move => rfl
  | .turn _ => by simp [same]
  | .collect => rfl
  | .loop _ body => by simp [same, same_all_self body]
  | .branch _ x y => by simp [same, same_all_self x, same_all_self y]
  | .other _ => by simp [same]

/-- A list of instructions compares as the same as itself. -/
theorem same_all_self : ∀ as : List Instruction, sameAll as as = true
  | [] => rfl
  | a :: as => by simp [sameAll, same_self a, same_all_self as]

end

instance : DecidableEq Instruction := fun a b =>
  if h : same a b then isTrue (eq_of_same h)
  else isFalse fun heq => h (heq ▸ same_self a)

end Instruction

/-! ### Names -/

/-- The name of a side. -/
def Side.name : Side → String
  | .left => "left"
  | .right => "right"

/-- The name of a condition. -/
def Condition.name : Condition → String
  | .tileAheadWalkable => "tile-ahead-walkable"
  | .collectiblesRemaining => "collectibles-remaining"

/-- The condition with a name. -/
def Condition.ofName? : String → Option Condition
  | "tile-ahead-walkable" => some .tileAheadWalkable
  | "collectibles-remaining" => some .collectiblesRemaining
  | _ => none

/-- The name of an instruction's kind. -/
def Instruction.kind : Instruction → String
  | .move => "move"
  | .turn _ => "turn"
  | .collect => "collect"
  | .loop _ _ => "repeat"
  | .branch _ _ _ => "conditional"
  | .other kind => kind

/-- A kind in the spelling of codes: upper case, with `_` for each dash and space inside. -/
def codeOfKind (kind : String) : String :=
  String.ofList ((Text.trim kind.toList).map fun c =>
    if c = '-' ∨ c = ' ' then '_' else Text.upper c)

/-- The code under which a level allows an instruction. -/
def Instruction.blockCode : Instruction → String
  | .move => "MOVE"
  | .turn .left => "TURN_LEFT"
  | .turn .right => "TURN_RIGHT"
  | .collect => "COLLECT"
  | .loop _ _ => "REPEAT"
  | .branch _ _ _ => "CONDITIONAL"
  | .other kind => codeOfKind kind

end TileCourse
