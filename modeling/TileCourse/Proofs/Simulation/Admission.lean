import TileCourse.Proofs.Program.Admission
import TileCourse.Proofs.Program.RoundTrip
import TileCourse.Proofs.Simulation.Replay

/-!
# What admission keeps away from runs

A level that restricts its programs compares codes, and a run looks at the instructions themselves.
The code of an unknown kind is the kind in capital letters, so a kind that is spelled like a known
instruction has the code of that instruction: it is admitted with it, and the run stops there.
`accepted_run_supported` says that no other instruction of an unknown kind is ever met after an
admission, and `accept_disguised` that every such kind is admitted.
-/

namespace TileCourse

/-- The codes of the instructions that are not of an unknown kind. -/
def blockCodes : List String :=
  ["MOVE", "TURN_LEFT", "TURN_RIGHT", "COLLECT", "REPEAT", "CONDITIONAL"]

namespace Instruction

/-- An unknown kind does not have the code of a known instruction. -/
def Distinct : Instruction → Prop
  | .other kind => codeOfKind kind ∉ blockCodes
  | .move | .turn _ | .collect | .loop _ _ | .branch _ _ _ => True

end Instruction

/-! ### Runs -/

namespace Setting

variable {setting : Setting} {p : Instruction → Prop} {run : Run} {outcome : Outcome}

/-- A run is stopped as unsupported only by an instruction of an unknown kind with that code. -/
theorem Leads.unsupported (h : Leads setting p run outcome) {code : String}
    (hcode : outcome.failure = some (.unsupported code)) :
    ∃ kind, p (.other kind) ∧ codeOfKind kind = code := by
  induction h with
  | rest | exhausted | tooDeep => cases hcode
  | blocked run instruction failure hp _ hobstacle =>
      obtain rfl := Option.some.inj hcode
      -- a move is only ever stopped by a collision, and the rest by nothing
      cases instruction with
      | move =>
          rw [obstacle?] at hobstacle
          split at hobstacle <;> cases hobstacle
      | other kind =>
          cases hobstacle
          exact ⟨kind, hp, rfl⟩
      | turn | collect | loop | branch => cases hobstacle
  | step _ _ _ _ _ _ _ ih => exact ih hcode

end Setting

/-- A program stops as unsupported only at an instruction of an unknown kind in it. -/
theorem simulate_unsupported {p : Instruction → Prop} {level : Level} {options : Options}
    {program : Program} (hp : Instruction.EverywhereIn p program) {code : String}
    (hcode : (simulate level options program).errorCode = some (.unsupported code)) :
    ∃ kind, p (.other kind) ∧ codeOfKind kind = code :=
  (options.leads_of hp level).unsupported ((error_code_iff (by simp)).1 hcode)

/-- A level that allows some instructions, all of them known, and accepts a program: a run of the
program that stops as unsupported stops at a code that is allowed, so it never does if no unknown
kind in the program has the code of a known instruction. -/
theorem accepted_run_supported {level : Level} {program : Program}
    (hrestricted : level.allowedBlocks.isEmpty = false)
    (hknown : ∀ code ∈ level.allowedBlocks, code ∈ blockCodes)
    (haccept : level.accept program = .ok ()) (options : Options) :
    (Instruction.EverywhereIn Instruction.Distinct program →
      ∀ code, (simulate level options program).errorCode ≠ some (.unsupported code)) ∧
    ∀ code, (simulate level options program).errorCode = some (.unsupported code) →
      code ∈ level.allowedBlocks := by
  have hallowed : Instruction.EverywhereIn (·.blockCode ∈ level.allowedBlocks) program := by
    simpa [hrestricted] using (Level.accept_eq_ok_iff.1 haccept).2
  constructor
  · intro hdistinct code hcode
    obtain ⟨kind, ⟨hkind, hother⟩, -⟩ := simulate_unsupported (hallowed.and hdistinct) hcode
    exact hother (hknown _ hkind)
  · intro code hcode
    obtain ⟨kind, hkind, rfl⟩ := simulate_unsupported hallowed hcode
    exact hkind

/-- Whatever unknown kind has an allowed code, a level admits it, and a run stops at it. -/
theorem accept_disguised {level : Level} {kind : String}
    (hkind : codeOfKind kind ∈ level.allowedBlocks) :
    level.accept [.other kind] = .ok () ∧ ∀ options : Options, 0 < options.budget level →
      (simulate level options [.other kind]).errorCode = some (.unsupported (codeOfKind kind)) := by
  constructor
  · exact Level.accept_eq_ok_iff.2 ⟨List.cons_ne_nil _ _, .inr ⟨hkind, trivial⟩⟩
  · intro options hbudget
    refine (error_code_iff (by simp)).2 ?_
    have hroom : ¬ (options.setting level).stepLimit ≤ (Run.start level).world.steps :=
      UInt32.not_le.2 hbudget
    rw [Setting.execute_top, Setting.perform_all_cons, Setting.spend, if_neg hroom]
    rfl

/-- The orchard, in which one may only move. -/
def Level.lane : Level := { Level.orchard with allowedBlocks := TextSet.empty.insert "MOVE" }

/-- Not everything is allowed in the lane. -/
theorem lane_restricted : Level.lane.allowedBlocks.isEmpty = false := rfl

/-- What is allowed in the lane are known codes. -/
theorem lane_known : ∀ code ∈ Level.lane.allowedBlocks, code ∈ blockCodes := by
  intro code hcode
  obtain rfl | hnone := TextSet.mem_insert.1 hcode
  · decide
  · exact absurd hnone (TextSet.not_mem_empty code)

/-- Two moves through the lane end in a collision, not at an unknown instruction. -/
theorem accepted_run_supported_lane : Level.lane.accept [.move, .move] = .ok () ∧
    ∀ code, (simulate .lane (.ofDefaults 200 10) [.move, .move]).errorCode ≠
      some (.unsupported code) := by
  have haccept : Level.lane.accept [.move, .move] = .ok () := by decide
  exact ⟨haccept, (accepted_run_supported lane_restricted lane_known haccept
    (.ofDefaults 200 10)).1 ⟨trivial, trivial, trivial⟩⟩

/-- Without regard to how unknown kinds are spelled it is not true, even of programs that are read
from a text: a move in capital letters is admitted as a move. -/
theorem not_accepted_run_supported :
    ¬∀ (level : Level) (source : String) (program : Program) (options : Options),
      Program.parse source = .ok program → level.allowedBlocks.isEmpty = false →
      (∀ code ∈ level.allowedBlocks, code ∈ blockCodes) → level.accept program = .ok () →
      ∀ code, (simulate level options program).errorCode ≠ some (.unsupported code) := by
  intro hall
  have hcode : codeOfKind "MOVE" = "MOVE" := by decide
  have hmember : codeOfKind "MOVE" ∈ Level.lane.allowedBlocks := by
    rw [hcode]
    exact TextSet.mem_insert.2 (.inl rfl)
  have hrepresentable : Program.Representable [.other "MOVE"] :=
    ⟨⟨⟨Instruction.is_word_of_all (by decide) (by decide), by decide⟩, trivial⟩, by decide⟩
  have hparse : Program.parse "MOVE\n" = .ok [.other "MOVE"] := hrepresentable.parse_render
  obtain ⟨haccept, hstops⟩ := accept_disguised hmember
  exact hall .lane "MOVE\n" _ (.ofDefaults 200 10) hparse lane_restricted lane_known haccept _
    (hstops _ (by decide))

end TileCourse
