import Mathlib.Data.List.DropRight
import TileCourse.Proofs.Catalog.Wire
import TileCourse.Simulation.ErrorCode

/-!
# Codes of failed runs in JSON

A failure is read from its code again exactly if the kind it names, should it name one, is the
spelling of a kind that is not blank: `ErrorCode.parse_code_iff`. Spelling a kind as in codes twice
changes nothing, so this is true of every failure of a run that has met no blank kind.
-/

namespace TileCourse

/-! ### Spelling -/

namespace Text

variable {cs : List Char}

/-- A list of characters does not start or end with a blank. -/
def Trimmed (cs : List Char) : Prop :=
  ∀ h : cs ≠ [], isBlank (cs.head h) = false ∧ isBlank (cs.getLast h) = false

/-- Trimming drops the blanks at the start and those at the end. -/
theorem trim_eq (cs : List Char) : trim cs = (cs.dropWhile isBlank).rdropWhile isBlank := rfl

/-- What is left after trimming does not start or end with a blank. -/
theorem trimmed_trim (cs : List Char) : Trimmed (trim cs) := by
  intro h
  have hstart : trim cs <+: cs.dropWhile isBlank := List.rdropWhile_prefix isBlank _
  refine ⟨?_, Bool.eq_false_iff.2 (List.rdropWhile_last_not isBlank _ h)⟩
  -- what is cut at the end leaves the start as it is
  rw [hstart.head h]
  exact List.head_dropWhile_not isBlank _

/-- Trimming leaves a text as it is that does not start or end with a blank. -/
theorem trim_of_trimmed (h : Trimmed cs) : trim cs = cs := by
  have hstart : cs.dropWhile isBlank = cs := by
    refine List.dropWhile_eq_self_iff.2 fun hpos => ?_
    rw [← List.head_eq_getElem (List.ne_nil_of_length_pos hpos)]
    exact Bool.eq_false_iff.1 (h _).1
  rw [trim_eq, hstart]
  exact List.rdropWhile_eq_self_iff.2 fun hne => Bool.eq_false_iff.1 (h hne).2

/-- A text stays trimmed if no character becomes a blank. -/
theorem Trimmed.map {f : Char → Char} (hf : ∀ c, isBlank c = false → isBlank (f c) = false)
    (h : Trimmed cs) : Trimmed (cs.map f) := by
  intro hne
  rw [List.head_map, List.getLast_map]
  exact (h _).imp (hf _) (hf _)

/-- Trimming leaves nothing of a text that is all blanks, and of no other. -/
theorem trim_eq_nil_iff : trim cs = [] ↔ ∀ c ∈ cs, isBlank c = true := by
  rw [trim_eq, List.rdropWhile_eq_nil_iff]
  constructor
  · intro h
    have hnil : cs.dropWhile isBlank = [] := by
      by_contra hne
      have hhead := h _ (List.head_mem hne)
      rw [List.head_dropWhile_not isBlank hne] at hhead
      cases hhead
    exact List.dropWhile_eq_nil_iff.1 hnil
  · intro h
    rw [List.dropWhile_eq_nil_iff.2 h]
    simp

/-- A letter in upper case, or any other character as it is. -/
theorem upper_cases (c : Char) :
    upper c = c ∨ 65 ≤ (upper c).toNat ∧ (upper c).toNat ≤ 90 := by
  unfold upper Char.toUpper
  split
  · rename_i h
    have hlow := UInt32.le_iff_toNat_le.1 h.1
    have hhigh := UInt32.le_iff_toNat_le.1 h.2
    simp only [Char.toNat, UInt32.toNat_add]
    simp at *
    omega
  · exact .inl rfl

/-- Writing a letter in upper case twice is writing it so once. -/
theorem upper_upper (c : Char) : upper (upper c) = upper c := by
  rcases upper_cases c with h | ⟨-, hhigh⟩
  · rw [h, h]
  · refine dif_neg fun hlower => ?_
    have hlow : 97 ≤ (upper c).toNat := UInt32.le_iff_toNat_le.1 hlower.1
    omega

end Text

/-- A character in the spelling of codes. -/
def codeChar (c : Char) : Char := if c = '-' ∨ c = ' ' then '_' else Text.upper c

/-- A kind is spelled in codes by trimming it and spelling each character. -/
theorem code_of_kind_eq (kind : String) :
    (codeOfKind kind).toList = (Text.trim kind.toList).map codeChar :=
  String.toList_ofList

/-- No other character becomes a blank in the spelling of codes. -/
theorem code_char_blank {c : Char} (h : Text.isBlank c = false) :
    Text.isBlank (codeChar c) = false := by
  rw [codeChar]
  split
  · rfl
  · rcases Text.upper_cases c with hsame | hletter
    · rwa [hsame]
    · simp only [Text.isBlank, Bool.or_eq_false_iff, Bool.and_eq_false_iff, decide_eq_false_iff_not,
        beq_eq_false_iff_ne]
      omega

/-- The spelling of a character in codes is its own spelling. -/
theorem code_char_code_char (c : Char) : codeChar (codeChar c) = codeChar c := by
  by_cases hgap : c = '-' ∨ c = ' '
  · rw [codeChar, codeChar, if_pos hgap]
    rfl
  · have hcode : codeChar c = Text.upper c := if_neg hgap
    rw [hcode]
    rcases Text.upper_cases c with hsame | hletter
    · rw [hsame, hcode, hsame]
    · have hupper : ¬(Text.upper c = '-' ∨ Text.upper c = ' ') := by
        rintro (heq | heq) <;> simp [heq] at hletter
      rw [codeChar, if_neg hupper, Text.upper_upper]

/-- The spelling of a kind in codes is its own spelling. -/
theorem code_of_kind_code_of_kind (kind : String) :
    codeOfKind (codeOfKind kind) = codeOfKind kind := by
  have htrimmed : Text.Trimmed (codeOfKind kind).toList := by
    rw [code_of_kind_eq]
    exact (Text.trimmed_trim _).map fun _ => code_char_blank
  rw [← String.toList_inj, code_of_kind_eq, Text.trim_of_trimmed htrimmed, code_of_kind_eq,
    List.map_map]
  exact List.map_congr_left fun c _ => code_char_code_char c

/-- A blank kind is the only one without a spelling. -/
theorem code_of_kind_eq_empty_iff {kind : String} :
    codeOfKind kind = "" ↔ ∀ c ∈ kind.toList, Text.isBlank c = true := by
  rw [← String.toList_inj, code_of_kind_eq, String.toList_empty, List.map_eq_nil_iff,
    Text.trim_eq_nil_iff]

namespace ErrorCode

/-- A stem is dropped from any text that starts with it. -/
theorem drop_stem_append (stem cs : List Char) : dropStem? stem (stem ++ cs) = some cs := by
  induction stem with
  | nil => rfl
  | cons s stem ih => rw [List.cons_append, dropStem?, if_pos rfl, ih]

/-- A failure names no kind, or a kind that is not blank as it is spelled in codes. -/
def Normal : ErrorCode → Prop
  | unsupported kind =>
    ∃ word, (∃ c ∈ word.toList, Text.isBlank c = false) ∧ codeOfKind word = kind
  | _ => True

/-- An unknown kind is normal if it is not empty and is spelled as in codes. -/
theorem normal_unsupported_iff {kind : String} :
    (unsupported kind).Normal ↔ kind ≠ "" ∧ codeOfKind kind = kind := by
  constructor
  · rintro ⟨word, ⟨c, hmem, hblank⟩, rfl⟩
    refine ⟨fun hempty => ?_, code_of_kind_code_of_kind word⟩
    simp [code_of_kind_eq_empty_iff.1 hempty c hmem] at hblank
  · rintro ⟨hne, hcode⟩
    refine ⟨kind, ?_, hcode⟩
    by_contra hblank
    refine hne (hcode.symm.trans (code_of_kind_eq_empty_iff.2 fun c hmem => ?_))
    by_contra hc
    exact hblank ⟨c, hmem, Bool.eq_false_iff.2 hc⟩

/-- What begins as the codes of unknown kinds do is read as the kind that follows. -/
theorem parse_unsupported (kind : String) :
    parse? (unsupportedStem ++ kind) = if kind = "" then none else some (ofKind kind) := by
  have hstem := drop_stem_append unsupportedStem.toList kind.toList
  rw [← String.toList_append] at hstem
  have hother : ∀ code : String, dropStem? unsupportedStem.toList code.toList = none →
      unsupportedStem ++ kind ≠ code := by
    rintro _ hnone rfl
    rw [hstem] at hnone
    cases hnone
  unfold parse?
  -- the codes that name no kind begin in another way
  split
  · exact absurd ‹_› (hother _ rfl)
  · exact absurd ‹_› (hother _ rfl)
  · exact absurd ‹_› (hother _ rfl)
  · exact absurd ‹_› (hother _ rfl)
  · rw [hstem]
    split
    · rename_i hnil
      rw [if_pos (String.toList_inj.1 (Option.some.inj hnil))]
    · rename_i cs hne hcs
      obtain rfl := Option.some.inj hcs
      rw [String.ofList_toList, if_neg]
      rintro rfl
      exact hne rfl
    · rename_i hnone
      cases hnone

/-- Exactly the normal failures are read again from their codes. -/
theorem parse_code_iff (code : ErrorCode) : parse? code.render = some code ↔ code.Normal := by
  cases code with
  | collide | stepLimit | loopDepth | goalNotMet => exact iff_of_true rfl trivial
  | unsupported kind =>
      rw [render, parse_unsupported, normal_unsupported_iff, ofKind]
      by_cases hempty : kind = ""
      · simp [hempty]
      · simp [hempty]

open Json Decoder

/-- A failure is read back, if it is normal. -/
theorem keeps (code : ErrorCode) :
    (Wire.decode (α := ErrorCode)).Keeps .plain (Wire.encode code) code code.Normal := by
  have hrestores : Restores Wire.decode (Wire.encode code) code fun _ => code.Normal := by
    refine ⟨trivial, fun form room node hnode => ?_⟩
    refine refine_eq_ok_iff.trans (((text_restores code.render).exists_iff hnode).trans ?_)
    rw [← parse_code_iff]
    cases parse? code.render <;> simp
  exact hrestores.keeps fun room => (and_iff_right (Nat.zero_le room)).symm

end ErrorCode

end TileCourse
