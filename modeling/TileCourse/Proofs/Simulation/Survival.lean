import TileCourse.Proofs.Program.Exchange
import TileCourse.Proofs.Program.RoundTrip
import TileCourse.Proofs.Simulation.Admission
import TileCourse.Proofs.Simulation.ErrorCode

/-!
# Codes that are read again

The code of a failure is written with a result and read with it again. A kind is refused if it is
empty, but that is asked before the blanks around it are removed. So a kind of nothing but blanks is
taken, and has a code that names no kind and is not read. `codes_survive_unless_blank` says that
there is no other such code. No text program names a blank kind; a program in JSON may.
-/

namespace TileCourse

/-- A text has no characters but blanks. -/
def Text.Blank (s : String) : Prop := ∀ c ∈ s.toList, Text.isBlank c = true

namespace ErrorCode

variable {kind text : String} {code : ErrorCode}

/-- A failure is read again from its code. -/
def Survives (code : ErrorCode) : Prop := parse? code.render = some code

/-- Only a blank kind has a code that names no kind. -/
theorem of_kind_eq_iff : ofKind kind = unsupported "" ↔ Text.Blank kind := by
  rw [ofKind, unsupported.injEq, code_of_kind_eq_empty_iff, Text.Blank]

/-- Spelling a kind as in codes twice changes nothing, so its code is read again unless nothing is
left of the kind. -/
theorem of_kind_survives_iff : (ofKind kind).Survives ↔ ¬Text.Blank kind := by
  rw [Survives, parse_code_iff, ofKind, normal_unsupported_iff, code_of_kind_code_of_kind,
    and_iff_left rfl, Ne, code_of_kind_eq_empty_iff, Text.Blank]

/-- A text from which a stem can be dropped starts with it. -/
theorem eq_of_drop_stem {stem cs rest : List Char} (h : dropStem? stem cs = some rest) :
    cs = stem ++ rest := by
  induction stem generalizing cs with
  | nil => exact Option.some.inj h
  | cons s stem ih =>
      cases cs with
      | nil => cases h
      | cons c cs =>
          rw [dropStem?] at h
          split at h
          · rename_i hsame
            rw [hsame, ih h, List.cons_append]
          · cases h

/-- A text that is read as a failure is its code, or names a kind that is spelled there in some
way. -/
theorem parse_cases (h : parse? text = some code) :
    text = code.render ∨ ∃ kind, text = unsupportedStem ++ kind ∧ code = ofKind kind := by
  unfold parse? at h
  split at h
  case h_5 =>
    split at h
    · cases h
    · rename_i kind _ hkind
      refine .inr ⟨String.ofList kind, ?_, (Option.some.inj h).symm⟩
      rw [← String.toList_inj, String.toList_append, String.toList_ofList]
      exact eq_of_drop_stem hkind
    · cases h
  case h_1 | h_2 | h_3 | h_4 =>
    cases h
    exact .inl rfl

/-- What has been read is read again from its own code, unless it was a blank kind. -/
theorem survives_iff_of_parse (h : parse? text = some code) :
    code.Survives ↔ ¬∃ kind, Text.Blank kind ∧ text = unsupportedStem ++ kind := by
  constructor
  · rintro hsurvives ⟨kind, hblank, rfl⟩
    rw [parse_unsupported] at h
    split at h
    · cases h
    · cases h
      exact of_kind_survives_iff.1 hsurvives hblank
  · intro hnone
    rcases parse_cases h with rfl | ⟨kind, rfl, rfl⟩
    · exact h
    · exact of_kind_survives_iff.2 fun hblank => hnone ⟨kind, hblank, rfl⟩

end ErrorCode

namespace Instruction

/-- An unknown kind is not blank. -/
def Visible : Instruction → Prop
  | .other kind => ¬Text.Blank kind
  | .move | .turn _ | .collect | .loop _ _ | .branch _ _ _ => True

/-- A word has a character, and none of its characters is a blank. -/
theorem Speakable.visible : ∀ {instruction : Instruction}, instruction.Speakable →
    instruction.Visible
  | .other kind, h => by
      intro hblank
      obtain ⟨c, hc⟩ := List.exists_mem_of_ne_nil _ h.1.nonempty
      exact absurd (hblank c hc) (Bool.eq_false_iff.1 (h.1.solid c hc))
  | .move, _ | .turn _, _ | .collect, _ | .loop _ _, _ | .branch _ _ _, _ => trivial

end Instruction

/-- A run ends with a code that is read again, unless it met a blank kind. -/
theorem simulate_survives {level : Level} {options : Options} {program : Program}
    {code : ErrorCode} (hvisible : Instruction.EverywhereIn Instruction.Visible program)
    (hcode : (simulate level options program).errorCode = some code) : code.Survives := by
  cases code with
  | collide | stepLimit | loopDepth | goalNotMet => rfl
  | unsupported spelled =>
      obtain ⟨kind, hkind, rfl⟩ := simulate_unsupported hvisible hcode
      exact ErrorCode.of_kind_survives_iff.2 hkind

/-- A run whose code is not read again has met a blank kind, and nothing is read from the code. -/
theorem simulate_not_survives {level : Level} {options : Options} {program : Program}
    {code : ErrorCode} (hcode : (simulate level options program).errorCode = some code)
    (hlost : ¬code.Survives) : code = .unsupported "" ∧ ErrorCode.parse? code.render = none := by
  cases code with
  | collide | stepLimit | loopDepth | goalNotMet => exact absurd rfl hlost
  | unsupported spelled =>
      obtain ⟨kind, -, rfl⟩ := simulate_unsupported (Setting.everywhere_in_true program) hcode
      have hempty : ErrorCode.ofKind kind = .unsupported "" :=
        ErrorCode.of_kind_eq_iff.2 (not_not.1 (mt ErrorCode.of_kind_survives_iff.2 hlost))
      rw [ErrorCode.ofKind] at hempty
      rw [hempty]
      exact ⟨rfl, ErrorCode.parse_unsupported ""⟩

/-- What is read from a code is read again from its own, and so is the failure of meeting a kind,
unless the kind is blank. Programs in text name no such kind. The code with which a run ends is read
again unless the program has one, and if it is not, it is the code without a kind. -/
theorem codes_survive_unless_blank (text kind : String) (level : Level) (options : Options)
    (program : Program) :
    (∀ code, ErrorCode.parse? text = some code →
      (code.Survives ↔ ¬∃ kind, Text.Blank kind ∧ text = ErrorCode.unsupportedStem ++ kind)) ∧
    ((ErrorCode.ofKind kind).Survives ↔ ¬Text.Blank kind) ∧
    (∀ source, Program.parse source = .ok program →
      Instruction.EverywhereIn Instruction.Visible program) ∧
    ∀ code, (simulate level options program).errorCode = some code →
      (Instruction.EverywhereIn Instruction.Visible program → code.Survives) ∧
      (¬code.Survives → code = .unsupported "" ∧ ErrorCode.parse? code.render = none) := by
  refine ⟨fun code => ErrorCode.survives_iff_of_parse, ErrorCode.of_kind_survives_iff,
    fun source h => ?_, fun code hcode => ?_⟩
  · exact (Program.representable_of_parse h).kinds.mono fun _ => Instruction.Speakable.visible
  · exact ⟨fun hvisible => simulate_survives hvisible hcode, simulate_not_survives hcode⟩

/-- A kind with a blank before it and a dash in it is read again in the spelling of codes, and a run
that meets it ends with the same code. -/
theorem codes_survive_fly_up :
    ErrorCode.parse? "E_UNSUPPORTED_ fly-up" = some (.unsupported "FLY_UP") ∧
      (simulate .orchard (.ofDefaults 200 10) [.other " fly-up"]).errorCode =
        some (.unsupported "FLY_UP") ∧
      (ErrorCode.unsupported "FLY_UP").Survives := by
  have hparse : ErrorCode.parse? "E_UNSUPPORTED_ fly-up" = some (.unsupported "FLY_UP") := by
    decide
  have hrun : (simulate .orchard (.ofDefaults 200 10) [.other " fly-up"]).errorCode =
      some (.unsupported "FLY_UP") := by
    decide
  have hvisible : Instruction.EverywhereIn Instruction.Visible [.other " fly-up"] := by
    refine ⟨fun hblank => ?_, trivial⟩
    exact absurd (hblank 'f' (by decide)) (by decide)
  obtain ⟨-, -, -, hcodes⟩ := codes_survive_unless_blank "E_UNSUPPORTED_ fly-up" " fly-up" .orchard
    (.ofDefaults 200 10) [.other " fly-up"]
  exact ⟨hparse, hrun, (hcodes _ hrun).1 hvisible⟩

/-- A failure that was read is not always read again from its own code, and neither is that of
meeting a kind of a program that was read: a kind may be blank. -/
theorem not_codes_survive :
    (¬∀ (text : String) (code : ErrorCode), ErrorCode.parse? text = some code →
      code.Survives) ∧
    ¬∀ (source : String) (program : Program), Program.parseJson source = .ok program →
      ∀ kind, .other kind ∈ program → (ErrorCode.ofKind kind).Survives := by
  have hblank : Text.Blank " " := by
    intro c hc
    obtain rfl : c = ' ' := by simpa using hc
    decide
  have hlost : ¬(ErrorCode.ofKind " ").Survives :=
    fun hsurvives => ErrorCode.of_kind_survives_iff.1 hsurvives hblank
  constructor
  · intro hall
    have hparse : ErrorCode.parse? "E_UNSUPPORTED_ " = some (.ofKind " ") := by decide
    exact hlost (hall _ _ hparse)
  · intro hall
    have hcandid : Instruction.EverywhereIn Instruction.Candid [.other " "] := by
      simp [Instruction.EverywhereIn, Instruction.Everywhere, Instruction.Candid,
        Instruction.UnknownKind]
    have hbrackets : Json.brackets ((Json.Wire.encode [Instruction.other " "]).render .compact) ≤
        Json.textRoom := by
      rw [Program.brackets_encode Json.blank_compact]
      decide
    have hparse := (Program.parse_json_encode_iff Json.blank_compact).2 ⟨hcandid, hbrackets⟩
    exact hlost (hall _ _ hparse " " List.mem_cons_self)

end TileCourse
