import TileCourse.Proofs.Json.Brackets
import TileCourse.Proofs.Program.Wire

/-!
# Programs exchanged as JSON

A program that is written as JSON is read again if its kinds are known for what they are, and if
its text does not open more brackets than a reader puts up with. Nothing more is lost by an
exchange: a program that has been read from any text at all is given again by its own.
-/

namespace TileCourse.Program

open Json Instruction

variable {program : Program}

/-- The text of a program opens brackets for the list of its instructions and for their forms. -/
theorem brackets_encode {style : Style} (hstyle : style.Blank) :
    brackets ((Wire.encode program).render style) = (Json.array (encodeList program)).depth := by
  rw [brackets_render hstyle, encode_list_eq_map]
  rfl

/-- A program is read from its own text, in any style, exactly if it is candid about its kinds and
the text opens no more brackets than a reader of texts has room for. -/
theorem parse_json_encode_iff {style : Style} (hstyle : style.Blank) :
    parseJson ((Wire.encode program).render style) = .ok program ↔
      EverywhereIn Candid program ∧
        brackets ((Wire.encode program).render style) ≤ textRoom := by
  have hrestores := list_restores (all_decoder_restores program)
  have hencode : Wire.encode program = Json.array (encodeList program) := by
    rw [encode_list_eq_map]
    rfl
  rw [brackets_encode hstyle, hencode, and_comm]
  exact decode_text_render_iff hstyle hrestores

/-- A program that has been read has bodies so shallow that its own form fits into a text: each body
around an instruction has taken two brackets, whether it was written or left out, and an
instruction takes two for itself. -/
theorem depth_of_parse_json {source : String} (h : parseJson source = .ok program) :
    (Json.array (encodeList program)).depth ≤ textRoom := by
  obtain ⟨-, hitems⟩ := Decoder.decode_of_list (decode_of_decode_text h)
  have hdepth : ∀ instruction ∈ program, instruction.encode.depth ≤ 126 := by
    intro instruction hmem
    obtain ⟨item, hitem⟩ := hitems instruction hmem
    have hnesting : 2 * instruction.nesting + 1 ≤ textRoom - 1 := nesting_of_decode hitem
    rw [textRoom] at hnesting
    exact (depth_le_iff (n := 62)).2 (by omega)
  have hall : itemsDepth (encodeList program) ≤ 126 := by
    rw [encode_list_eq_map, items_depth_le_iff]
    exact List.forall_mem_map.2 hdepth
  rw [Json.depth, textRoom]
  exact Nat.succ_le_succ hall

/-- A program is read from its own text, compact or spread over lines, exactly if no kind at any
depth is said to be unknown though it is known or empty, and at most 127 arrays and objects are
open at once in the text. Whatever text a program has been read from, it is read again from its
own. -/
theorem parse_json_serialized_iff :
    (∀ program : Program, ∀ text ∈ [compact (Wire.encode program), pretty (Wire.encode program)],
      (parseJson text = .ok program ↔ EverywhereIn Candid program ∧ brackets text ≤ 127)) ∧
    ∀ (source : String) (program : Program), parseJson source = .ok program →
      ∀ text ∈ [compact (Wire.encode program), pretty (Wire.encode program)],
        parseJson text = .ok program := by
  have hstyles {program : Program} {text : String}
      (htext : text ∈ [compact (Wire.encode program), pretty (Wire.encode program)]) :
      ∃ style : Style, style.Blank ∧ text = (Wire.encode program).render style := by
    obtain rfl | rfl : text = compact (Wire.encode program) ∨
        text = pretty (Wire.encode program) := by simpa using htext
    · exact ⟨.compact, blank_compact, rfl⟩
    · exact ⟨.spread, blank_spread, rfl⟩
  constructor
  · intro program text htext
    obtain ⟨style, hstyle, rfl⟩ := hstyles htext
    exact parse_json_encode_iff hstyle
  · intro source program h text htext
    obtain ⟨style, hstyle, rfl⟩ := hstyles htext
    rw [parse_json_encode_iff hstyle, brackets_encode hstyle]
    exact ⟨candid_of_parse_json h, depth_of_parse_json h⟩

end TileCourse.Program
