import TileCourse.Proofs.Program.Grammar
import TileCourse.Proofs.Program.Lines
import TileCourse.Proofs.Program.Tree
import TileCourse.Proofs.Text.Digits

/-!
# Writing programs and reading them again

`parse_render_iff` says exactly which programs survive: those whose unknown kinds can be words of
their own, and in which no instruction lies too deep. Everything the parser reads is such a program,
so a text can be reformatted without changing what it says. An `Instruction.outline` lists the lines
of an instruction as phrases, between its characters and its tree.
-/

namespace TileCourse

namespace Text

/-- Digits are read as their value, after digits that have been read before. -/
theorem numeral_from_eq_ok {cs : List Char} {value : Nat} (hdigits : ∀ c ∈ cs, c.isDigit = true)
    (hfits : Nat.ofDigitChars 10 cs value < 1 <<< 32) :
    numeralFrom cs value = .ok (Nat.ofDigitChars 10 cs value) := by
  induction cs generalizing value with
  | nil => simp [numeralFrom]
  | cons c cs ih =>
      obtain ⟨hc, hcs⟩ := List.forall_mem_cons.1 hdigits
      rw [Nat.ofDigitChars_cons, Nat.mul_comm] at hfits ⊢
      have hnext := Nat.lt_of_le_of_lt (le_of_digit_chars cs _) hfits
      rw [numeralFrom, if_pos hc, if_pos hnext, ih hcs hfits]

/-- The digits of a number of 32 bits are a numeral for it. -/
theorem numeral_to_digits (n : UInt32) : numeral (Nat.toDigits 10 n.toNat) = .ok n := by
  have hdigits (c : Char) (hc : c ∈ Nat.toDigits 10 n.toNat) : c.isDigit = true :=
    is_digit_of_mem hc
  have hvalue : numeralFrom (Nat.toDigits 10 n.toNat) 0 = .ok n.toNat := by
    rw [numeral_from_eq_ok hdigits (by simpa using n.toNat_lt), Nat.ofDigitChars_ten_toDigits]
  obtain ⟨c, cs, hcs⟩ := List.exists_cons_of_ne_nil (Nat.toDigits_ne_nil (n := n.toNat) (b := 10))
  have hplus : c ≠ '+' := by
    rintro rfl
    exact absurd (hdigits '+' (by simp [hcs])) (by decide)
  rw [hcs] at hvalue ⊢
  unfold numeral
  split
  · simp_all
  · simp_all
  · simp_all
  · rw [hvalue]
    simp [Except.map]

end Text

/-- The words that start a line of a form of its own. -/
def keywords : List String := ["move", "collect", "turn", "repeat", "if", "else"]

namespace Instruction

/-- An unknown kind can be a line, and no form of its own claims it. -/
def Speakable : Instruction → Prop
  | .other kind => IsWord kind ∧ kind ∉ keywords
  | _ => True

end Instruction

/-- A program can be written as a text: its unknown kinds are words, and no instruction lies in more
bodies than lines can be indented. -/
structure Program.Representable (program : Program) : Prop where
  kinds : Instruction.EverywhereIn Instruction.Speakable program
  nesting : ∀ instruction ∈ program, instruction.nesting ≤ maxNesting

namespace Instruction

/-! ### The phrases of a program -/

mutual

/-- The lines of an instruction at a level of indentation. -/
def outline (depth : Nat) : Instruction → List Phrase
  | .move => [⟨depth, ["move"]⟩]
  | .collect => [⟨depth, ["collect"]⟩]
  | .turn side => [⟨depth, ["turn", side.name]⟩]
  | .loop times body =>
      ⟨depth, ["repeat", String.ofList (Nat.toDigits 10 times.toNat)]⟩ ::
        outlineBlock (depth + 1) body
  | .branch condition whenTrue [] =>
      ⟨depth, "if" :: (condition.map Condition.name).toList⟩ :: outlineBlock (depth + 1) whenTrue
  | .branch condition whenTrue (first :: rest) =>
      ⟨depth, "if" :: (condition.map Condition.name).toList⟩ :: outlineBlock (depth + 1) whenTrue ++
        ⟨depth, ["else"]⟩ :: (outline (depth + 1) first ++ outlineBlock (depth + 1) rest)
  | .other kind => [⟨depth, [kind]⟩]

/-- The lines of a list of instructions at a level of indentation. -/
def outlineBlock (depth : Nat) : List Instruction → List Phrase
  | [] => []
  | instruction :: rest => outline depth instruction ++ outlineBlock depth rest

end

/-- The words of a branch are written as the printer starts one. -/
theorem written_branch (condition : Option Condition) :
    Line.written ("if" :: (condition.map Condition.name).toList) =
      Program.branchHead condition := by
  cases condition <;> rfl

mutual

/-- The printer writes an instruction as its phrases. -/
theorem render_instruction_eq (depth : Nat) :
    ∀ instruction, Program.renderInstruction depth instruction =
      (outline depth instruction).flatMap Phrase.text
  | .move | .collect | .other _ => by
      simp [Program.renderInstruction, outline, Phrase.text, Line.written]
  | .turn side => by
      simp [Program.renderInstruction, outline, Phrase.text, Line.written]
  | .loop times body => by
      simp [Program.renderInstruction, outline, Phrase.text, Line.written,
        render_block_eq (depth + 1) body]
  | .branch condition whenTrue [] => by
      simp [Program.renderInstruction, outline, Phrase.text, written_branch,
        render_block_eq (depth + 1) whenTrue]
  | .branch condition whenTrue (first :: rest) => by
      simp [Program.renderInstruction, outline, Phrase.text, written_branch, Line.written,
        render_block_eq (depth + 1) whenTrue, render_instruction_eq (depth + 1) first,
        render_block_eq (depth + 1) rest]

/-- The printer writes the lines of the instructions, one after the other. -/
theorem render_block_eq (depth : Nat) :
    ∀ program, Program.renderBlock depth program = (outlineBlock depth program).flatMap Phrase.text
  | [] => rfl
  | instruction :: rest => by
      simp [Program.renderBlock, outlineBlock, render_instruction_eq depth instruction,
        render_block_eq depth rest]

end

/-- A word is had from a test of its characters. -/
theorem is_word_of_all {s : String} (hne : s.toList ≠ [])
    (hall : s.toList.all (fun c => !Text.isBlank c && c != '#') = true) : IsWord s := by
  simp only [List.all_eq_true, Bool.and_eq_true, Bool.not_eq_true', bne_iff_ne] at hall
  exact ⟨hne, fun c hc => (hall c hc).1, fun hhash => (hall '#' hhash).2 rfl⟩

/-- The name of a side is a word. -/
theorem is_word_side (side : Side) : IsWord side.name := by
  cases side <;> exact is_word_of_all (by decide) (by decide)

/-- The name of a condition is a word. -/
theorem is_word_condition (condition : Condition) : IsWord condition.name := by
  cases condition <;> exact is_word_of_all (by decide) (by decide)

/-- The keywords are words. -/
theorem is_word_keyword : ∀ word ∈ keywords, IsWord word := by
  have h : ∀ word ∈ keywords, word.toList ≠ [] ∧
      word.toList.all (fun c => !Text.isBlank c && c != '#') = true := by decide
  exact fun word hword => is_word_of_all (h word hword).1 (h word hword).2

/-- The digits of a natural are a word. -/
theorem is_word_digits (n : Nat) : IsWord (String.ofList (Nat.toDigits 10 n)) := by
  have hdigit (c : Char) (hc : c ∈ Nat.toDigits 10 n) : c.isDigit = true :=
    Text.is_digit_of_mem hc
  refine ⟨by simp, fun c hc => ?_, fun hc => ?_⟩
  · have hc := hdigit c (by simpa using hc)
    simp only [Char.isDigit, Bool.and_eq_true, decide_eq_true_eq, UInt32.le_iff_toNat_le] at hc
    have hlow : 48 ≤ c.toNat := hc.1
    have hhigh : c.toNat ≤ 57 := hc.2
    simp [Text.isBlank]
    omega
  · exact absurd (hdigit '#' (by simpa using hc)) (by decide)

/-- The words of a branch are words. -/
theorem is_word_branch (condition : Option Condition) :
    ∀ word ∈ "if" :: (condition.map Condition.name).toList, IsWord word := by
  rw [List.forall_mem_cons]
  refine ⟨is_word_keyword "if" (by decide), fun word hword => ?_⟩
  cases condition with
  | none => simp at hword
  | some condition =>
      obtain rfl : word = condition.name := by simpa using hword
      exact is_word_condition condition

/-- The instructions of a body lie one level deeper than its instruction. -/
theorem deeper {body : List Instruction} {depth n : Nat} (hbody : bodyNesting body ≤ n)
    (h : depth + n ≤ maxNesting) :
    ∀ instruction ∈ body, depth + 1 + instruction.nesting ≤ maxNesting := by
  intro instruction hmem
  have hnesting := body_nesting_le_iff.1 hbody instruction hmem
  omega

mutual

/-- The phrases of an instruction whose kinds are words are legible, unless they lie too deep. -/
theorem outline_legible (depth : Nat) :
    ∀ {instruction : Instruction}, instruction.Everywhere Speakable →
      depth + instruction.nesting ≤ maxNesting →
        ∀ phrase ∈ outline depth instruction, phrase.Legible
  | .move, h, hdepth => by
      rw [outline, List.forall_mem_singleton]
      exact ⟨by simp, by simpa using is_word_keyword "move" (by decide), hdepth⟩
  | .collect, h, hdepth => by
      rw [outline, List.forall_mem_singleton]
      exact ⟨by simp, by simpa using is_word_keyword "collect" (by decide), hdepth⟩
  | .other kind, h, hdepth => by
      rw [outline, List.forall_mem_singleton]
      exact ⟨by simp, by simpa using h.1, hdepth⟩
  | .turn side, h, hdepth => by
      rw [outline, List.forall_mem_singleton]
      exact ⟨by simp, by simpa using ⟨is_word_keyword "turn" (by decide), is_word_side side⟩,
        hdepth⟩
  | .loop times body, h, hdepth => by
      rw [nesting] at hdepth
      rw [outline, List.forall_mem_cons]
      refine ⟨⟨by simp, ?_, by simp only; omega⟩,
        outline_block_legible (depth + 1) h.2 (deeper (Nat.le_refl _) hdepth)⟩
      simpa using ⟨is_word_keyword "repeat" (by decide), is_word_digits _⟩
  | .branch condition whenTrue [], h, hdepth => by
      rw [nesting] at hdepth
      rw [outline, List.forall_mem_cons]
      exact ⟨⟨by simp, is_word_branch condition, by simp only; omega⟩,
        outline_block_legible (depth + 1) h.2.1 (deeper (Nat.le_max_left _ _) hdepth)⟩
  | .branch condition whenTrue (first :: rest), h, hdepth => by
      rw [nesting] at hdepth
      rw [outline, List.cons_append, List.forall_mem_cons, List.forall_mem_append,
        List.forall_mem_cons]
      have hfalse := outline_block_legible (depth + 1) h.2.2 (deeper (Nat.le_max_right _ _) hdepth)
      refine ⟨⟨by simp, is_word_branch condition, by simp only; omega⟩,
        outline_block_legible (depth + 1) h.2.1 (deeper (Nat.le_max_left _ _) hdepth),
        ⟨by simp, by simpa using is_word_keyword "else" (by decide), by simp only; omega⟩, ?_⟩
      exact hfalse

/-- The lines of instructions that can be written are legible. -/
theorem outline_block_legible (depth : Nat) :
    ∀ {program : List Instruction}, EverywhereIn Speakable program →
      (∀ instruction ∈ program, depth + instruction.nesting ≤ maxNesting) →
        ∀ phrase ∈ outlineBlock depth program, phrase.Legible
  | [], _, _ => by simp [outlineBlock]
  | instruction :: rest, h, hdepth => by
      obtain ⟨hfirst, hrest⟩ := List.forall_mem_cons.1 hdepth
      rw [outlineBlock, List.forall_mem_append]
      exact ⟨outline_legible depth h.1 hfirst, outline_block_legible depth h.2 hrest⟩

end

end Instruction

/-! ### Reading phrases -/

namespace Phrase.ReadAs

variable {line : Line} {depth : Nat}

/-- A line that says one word has that word. -/
theorem words_one {word : String} (h : ReadAs ⟨depth, [word]⟩ line) :
    ∃ span, line.words = [⟨word, span⟩] := by
  obtain ⟨⟨text, span⟩, rest, hwords, rfl, hrest⟩ := List.map_eq_cons_iff.1 h.words
  exact ⟨span, by rw [hwords, List.map_eq_nil_iff.1 hrest]⟩

/-- A line that says two words has those words. -/
theorem words_two {word next : String} (h : ReadAs ⟨depth, [word, next]⟩ line) :
    ∃ span other, line.words = [⟨word, span⟩, ⟨next, other⟩] := by
  obtain ⟨⟨text, span⟩, rest, hwords, rfl, hrest⟩ := List.map_eq_cons_iff.1 h.words
  obtain ⟨⟨text, other⟩, final, rfl, rfl, hfinal⟩ := List.map_eq_cons_iff.1 hrest
  exact ⟨span, other, by rw [hwords, List.map_eq_nil_iff.1 hfinal]⟩

/-- A line that says so is a move. -/
theorem head_move (h : ReadAs ⟨depth, ["move"]⟩ line) : line.head = .ok (.simple .move) := by
  obtain ⟨span, hwords⟩ := h.words_one
  rw [Line.head, hwords]
  rfl

/-- A line that says so is a collection. -/
theorem head_collect (h : ReadAs ⟨depth, ["collect"]⟩ line) :
    line.head = .ok (.simple .collect) := by
  obtain ⟨span, hwords⟩ := h.words_one
  rw [Line.head, hwords]
  rfl

/-- A line that says so is a turn to a side. -/
theorem head_turn {side : Side} (h : ReadAs ⟨depth, ["turn", side.name]⟩ line) :
    line.head = .ok (.simple (.turn side)) := by
  obtain ⟨span, other, hwords⟩ := h.words_two
  rw [Line.head, hwords]
  cases side <;> rfl

/-- A line that says so starts a loop with a count. -/
theorem head_loop {times : UInt32}
    (h : ReadAs ⟨depth, ["repeat", String.ofList (Nat.toDigits 10 times.toNat)]⟩ line) :
    line.head = .ok (.loop times) := by
  obtain ⟨span, other, hwords⟩ := h.words_two
  rw [Line.head, hwords]
  simp [Line.argument, Line.noMore, Line.count, Text.numeral_to_digits, Except.map]

/-- A line that says so starts a branch with a condition or without. -/
theorem head_branch {condition : Option Condition}
    (h : ReadAs ⟨depth, "if" :: (condition.map Condition.name).toList⟩ line) :
    line.head = .ok (.branch condition) := by
  obtain _ | condition := condition
  · obtain ⟨span, hwords⟩ := words_one h
    rw [Line.head, hwords]
    rfl
  · obtain ⟨span, other, hwords⟩ := words_two h
    rw [Line.head, hwords]
    cases condition <;> rfl

/-- A line with one word that is no keyword is an unknown kind. -/
theorem head_other {kind : String} (h : ReadAs ⟨depth, [kind]⟩ line) (hkind : kind ∉ keywords) :
    line.head = .ok (.simple (.other kind)) := by
  obtain ⟨span, hwords⟩ := h.words_one
  simp only [keywords, List.mem_cons, List.not_mem_nil, or_false, not_or] at hkind
  rw [Line.head, hwords]
  simp [hkind, Line.noMore, Except.map]

/-- A line is an else exactly if its first word says so. -/
theorem is_else_iff {phrase : Phrase} (h : phrase.ReadAs line) :
    line.isElse = true ↔ phrase.words.head? = some "else" := by
  rw [Line.isElse, ← h.words]
  cases line.words <;> simp

end Phrase.ReadAs

namespace Instruction

/-- An instruction starts on a line at its own level, which is not an `else`. -/
theorem outline_head (depth : Nat) {instruction : Instruction}
    (h : instruction.Everywhere Speakable) :
    ∃ phrase rest, outline depth instruction = phrase :: rest ∧ phrase.depth = depth ∧
      phrase.words.head? ≠ some "else" := by
  match instruction, h with
  | .move, _ | .collect, _ => exact ⟨_, _, rfl, rfl, by simp⟩
  | .turn _, _ | .loop _ _, _ | .branch _ _ [], _ | .branch _ _ (_ :: _), _ =>
      exact ⟨_, _, rfl, rfl, by simp⟩
  | .other kind, h =>
      refine ⟨_, _, rfl, rfl, fun helse => h.2 ?_⟩
      obtain rfl : kind = "else" := by simpa using helse
      decide

/-- The lines of two runs of phrases are those of the one and then those of the other. -/
theorem read_as_append {phrases more : List Phrase} {lines : List Line}
    (h : List.Forall₂ Phrase.ReadAs (phrases ++ more) lines) :
    ∃ first second, lines = first ++ second ∧ List.Forall₂ Phrase.ReadAs phrases first ∧
      List.Forall₂ Phrase.ReadAs more second := by
  induction phrases generalizing lines with
  | nil => exact ⟨[], lines, rfl, .nil, h⟩
  | cons phrase phrases ih =>
      cases h with
      | cons hread h =>
          obtain ⟨first, second, rfl, hfirst, hsecond⟩ := ih h
          exact ⟨_ :: first, second, rfl, .cons hread hfirst, hsecond⟩

/-- After a block comes a line that is indented less, or none. -/
def Ends (depth : Nat) (tail : List Line) : Prop := ∀ line ∈ tail.head?, line.indent < depth

/-- After an instruction comes its next sibling, or what comes after its block. -/
def Follows (depth : Nat) (tail : List Line) : Prop :=
  ∀ line ∈ tail.head?, line.indent ≤ depth ∧ ¬ (line.indent = depth ∧ line.isElse = true)

/-- What ends a block can follow an instruction. -/
theorem Ends.follows {depth : Nat} {tail : List Line} (h : Ends depth tail) :
    Follows depth tail := by
  intro line hline
  have hless := h line hline
  exact ⟨Nat.le_of_lt hless, fun hsame => absurd hsame.1 (Nat.ne_of_lt hless)⟩

/-- What follows an instruction ends a block one level deeper. -/
theorem Follows.ends {depth : Nat} {tail : List Line} (h : Follows depth tail) :
    Ends (depth + 1) tail := fun line hline => Nat.lt_succ_of_le (h line hline).1

/-- The lines of a block may follow an instruction on the level of the block. -/
theorem outline_block_follows {depth : Nat} {program : List Instruction} {lines tail : List Line}
    (h : EverywhereIn Speakable program)
    (hlines : List.Forall₂ Phrase.ReadAs (outlineBlock depth program) lines)
    (htail : Ends depth tail) : Follows depth (lines ++ tail) := by
  cases program with
  | nil =>
      cases hlines
      exact htail.follows
  | cons instruction rest =>
      obtain ⟨phrase, others, hhead, hdepth, helse⟩ := outline_head depth h.1
      rw [outlineBlock, hhead, List.cons_append, List.forall₂_cons_left_iff] at hlines
      obtain ⟨line, others, hread, -, rfl⟩ := hlines
      rintro _ ⟨⟩
      have hindent : line.indent = depth := hread.depth.trans hdepth
      exact ⟨Nat.le_of_eq hindent, fun hsame => helse (hread.is_else_iff.1 hsame.2)⟩

mutual

/-- The lines of an instruction are read as the instruction. -/
theorem outline_parses (depth : Nat) :
    ∀ {instruction : Instruction}, instruction.Everywhere Speakable →
      ∀ {lines tail others after},
        List.Forall₂ Phrase.ReadAs (outline depth instruction) lines → Follows depth tail →
          Program.Parses depth tail others after →
            Program.Parses depth (lines ++ tail) (instruction :: others) after
  | .move, _, _, _, _, _, .cons hread .nil, _, hrest => .simple hread.depth hread.head_move hrest
  | .collect, _, _, _, _, _, .cons hread .nil, _, hrest =>
      .simple hread.depth hread.head_collect hrest
  | .turn _, _, _, _, _, _, .cons hread .nil, _, hrest => .simple hread.depth hread.head_turn hrest
  | .other _, h, _, _, _, _, .cons hread .nil, _, hrest =>
      .simple hread.depth (hread.head_other h.2) hrest
  | .loop _ _, h, _, _, _, _, .cons hread hbody, htail, hrest =>
      .loop hread.depth hread.head_loop (outline_block_parses (depth + 1) h.2 hbody htail.ends)
        hrest
  | .branch _ _ [], h, _, _, _, _, .cons hread htrue, htail, hrest =>
      .branch hread.depth hread.head_branch
        (outline_block_parses (depth + 1) h.2.1 htrue htail.ends)
        (fun line hline => (htail line hline).2) hrest
  | .branch _ _ (first :: rest), h, lines, tail, others, after, hlines, htail, hrest => by
      obtain ⟨front, final, rfl, hfront, hback⟩ := read_as_append hlines
      obtain ⟨line, whenTrue, hread, htrue, rfl⟩ := List.forall₂_cons_left_iff.1 hfront
      obtain ⟨next, whenFalse, hnext, hfalse, rfl⟩ := List.forall₂_cons_left_iff.1 hback
      have helse : next.isElse = true := hnext.is_else_iff.2 rfl
      obtain ⟨span, hwords⟩ := hnext.words_one
      have hends : Ends (depth + 1) (next :: (whenFalse ++ tail)) := by
        rintro _ ⟨⟩
        exact Nat.lt_succ_of_le (Nat.le_of_eq hnext.depth)
      rw [List.append_assoc]
      exact .branchElse hread.depth hread.head_branch
        (outline_block_parses (depth + 1) h.2.1 htrue hends) hnext.depth helse (by rw [hwords]; rfl)
        (outline_block_parses (depth + 1) h.2.2 hfalse htail.ends) hrest

/-- The lines of a list of instructions are read as a block. -/
theorem outline_block_parses (depth : Nat) :
    ∀ {program : List Instruction}, EverywhereIn Speakable program →
      ∀ {lines tail}, List.Forall₂ Phrase.ReadAs (outlineBlock depth program) lines →
        Ends depth tail → Program.Parses depth (lines ++ tail) program tail
  | [], _, _, _, .nil, htail => .done htail
  | instruction :: rest, h, lines, tail, hlines, htail => by
      obtain ⟨first, others, rfl, hfirst, hothers⟩ := read_as_append hlines
      rw [List.append_assoc]
      exact outline_parses depth h.1 hfirst (outline_block_follows h.2 hothers htail)
        (outline_block_parses depth h.2 hothers htail)

end

end Instruction

namespace Program

variable {program : Program} {source : String}

/-- A representable program is read from its own text. -/
theorem Representable.parse_render (h : Representable program) :
    parse (render program) = .ok program := by
  have hlegible := Instruction.outline_block_legible 0 h.kinds
    (fun instruction hmem => by simpa using h.nesting instruction hmem)
  obtain ⟨lines, hsplit, hlines⟩ := Line.split_phrases hlegible
  have hends : Instruction.Ends 0 [] := by simp [Instruction.Ends]
  have hparses := Instruction.outline_block_parses 0 h.kinds hlines hends
  rw [List.append_nil] at hparses
  rw [parse, render, String.toList_ofList, Instruction.render_block_eq, hsplit]
  exact of_lines_eq_ok_iff.2 hparses

/-! ### What the parser reads -/

/-- An instruction that is a line of its own has no bodies, and its kind is a word. -/
theorem head_simple {line : Line} {instruction : Instruction} (hsound : line.Sound)
    (h : line.head = .ok (.simple instruction)) :
    instruction.Everywhere Instruction.Speakable ∧ instruction.nesting = 0 := by
  unfold Line.head at h
  split at h
  · cases h
  · rename_i keyword rest hwords
    split at h
    case h_7 hmove hcollect hturn hrepeat hif helse =>
      obtain ⟨-, -, heq⟩ := map_eq_ok_iff.1 h
      cases heq
      have hword : IsWord keyword.text := hsound.2 keyword (by simp [hwords])
      refine ⟨⟨hword, ?_⟩, rfl⟩
      simpa [keywords] using ⟨hmove, hcollect, hturn, hrepeat, hif, helse⟩
    case h_1 | h_2 =>
      obtain ⟨-, -, heq⟩ := map_eq_ok_iff.1 h
      cases heq
      exact ⟨trivial, rfl⟩
    case h_3 =>
      split at h
      · cases h
      · obtain ⟨side, -, heq⟩ := map_eq_ok_iff.1 h
        cases heq
        exact ⟨trivial, rfl⟩
    case h_4 =>
      split at h
      · cases h
      · obtain ⟨times, -, heq⟩ := map_eq_ok_iff.1 h
        cases heq
    case h_5 =>
      obtain ⟨condition, -, heq⟩ := map_eq_ok_iff.1 h
      cases heq
    case h_6 => cases h

/-- What a block of sound lines says is representable at the depth of the block. -/
theorem Parses.sound {indent : Nat} {lines rest : List Line} (h : Parses indent lines program rest)
    (hsound : ∀ line ∈ lines, line.Sound) :
    Instruction.EverywhereIn Instruction.Speakable program ∧
      (∀ instruction ∈ program, indent + instruction.nesting ≤ maxNesting) ∧
      ∀ line ∈ rest, line.Sound := by
  -- Bodies lie one level deeper than the head of their instruction.
  have hbody {indent : Nat} {body : Program} (hindent : indent ≤ maxNesting)
      (h : ∀ instruction ∈ body, indent + 1 + instruction.nesting ≤ maxNesting) :
      indent + Instruction.bodyNesting body ≤ maxNesting := by
    have hle : Instruction.bodyNesting body ≤ maxNesting - indent :=
      Instruction.body_nesting_le_iff.2 fun instruction hmem => by
        have := h instruction hmem
        omega
    omega
  induction h with
  | done => exact ⟨trivial, by simp, hsound⟩
  | simple hindent hhead hrest ih =>
      obtain ⟨hline, htail⟩ := List.forall_mem_cons.1 hsound
      obtain ⟨hkind, hnesting⟩ := head_simple hline hhead
      obtain ⟨hkinds, hdepths, hafter⟩ := ih htail
      refine ⟨⟨hkind, hkinds⟩, List.forall_mem_cons.2 ⟨?_, hdepths⟩, hafter⟩
      rw [hnesting, ← hindent]
      exact hline.1
  | loop hindent hhead hrest hafter ihbody ihrest =>
      obtain ⟨hline, htail⟩ := List.forall_mem_cons.1 hsound
      obtain ⟨hkinds, hdepths, hmiddle⟩ := ihbody htail
      obtain ⟨hothers, hlevels, hafter⟩ := ihrest hmiddle
      refine ⟨⟨⟨trivial, hkinds⟩, hothers⟩, List.forall_mem_cons.2 ⟨?_, hlevels⟩, hafter⟩
      exact hbody (hindent ▸ hline.1) hdepths
  | branch hindent hhead htrue helse hrest ihtrue ihrest =>
      obtain ⟨hline, htail⟩ := List.forall_mem_cons.1 hsound
      obtain ⟨hkinds, hdepths, hmiddle⟩ := ihtrue htail
      obtain ⟨hothers, hlevels, hafter⟩ := ihrest hmiddle
      refine ⟨⟨⟨trivial, hkinds, trivial⟩, hothers⟩, List.forall_mem_cons.2 ⟨?_, hlevels⟩, hafter⟩
      have hwhenTrue := hbody (hindent ▸ hline.1) hdepths
      simp only [Instruction.nesting, Instruction.bodyNesting]
      omega
  | branchElse hindent hhead htrue hnext helse hwords hfalse hrest ihtrue ihfalse ihrest =>
      obtain ⟨hline, htail⟩ := List.forall_mem_cons.1 hsound
      obtain ⟨htrues, hdepths, hmiddle⟩ := ihtrue htail
      obtain ⟨hfalses, hdepths', hfinal⟩ := ihfalse (List.forall_mem_cons.1 hmiddle).2
      obtain ⟨hothers, hlevels, hafter⟩ := ihrest hfinal
      refine ⟨⟨⟨trivial, htrues, hfalses⟩, hothers⟩, List.forall_mem_cons.2 ⟨?_, hlevels⟩, hafter⟩
      have hwhenTrue := hbody (hindent ▸ hline.1) hdepths
      have hwhenFalse := hbody (hindent ▸ hline.1) hdepths'
      simp only [Instruction.nesting]
      omega

/-- Whatever the parser reads is representable. -/
theorem representable_of_parse (h : parse source = .ok program) : Representable program := by
  unfold parse at h
  split at h
  · cases h
  · rename_i lines hlines
    obtain ⟨hkinds, hnesting, -⟩ := (of_lines_eq_ok_iff.1 h).sound (Line.split_sound hlines)
    exact ⟨hkinds, fun instruction hmem => by simpa using hnesting instruction hmem⟩

/-- A program is read from its own text exactly if it is representable. Everything the parser reads
is, so a source text can be written anew and still says the same. -/
theorem parse_render_iff :
    (∀ program : Program, parse (render program) = .ok program ↔ Representable program) ∧
      ∀ (source : String) (program : Program), parse source = .ok program →
        Representable program ∧ parse (render program) = .ok program := by
  refine ⟨fun program => ⟨representable_of_parse, Representable.parse_render⟩, ?_⟩
  intro source program h
  exact ⟨representable_of_parse h, (representable_of_parse h).parse_render⟩

end Program

end TileCourse
