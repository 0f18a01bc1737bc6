import TileCourse.Proofs.Program.Layout
import TileCourse.Proofs.Program.Refusal

/-!
# Programs apart from their places

What a line says does not depend on where it stands. `unplaced` forgets the places of words, lines
and errors, and everything that reads lines gives the same without them: the same program, or the
same error apart from its place (`Program.of_lines_unplaced`).
-/

namespace TileCourse

/-- The same word at the start of the source. -/
def Word.unplaced (word : Word) : Word := ⟨word.text, ⟨0, 0⟩⟩

/-- The same line at the start of the source. -/
def Line.unplaced (line : Line) : Line := ⟨line.indent, ⟨0, 0⟩, line.words.map Word.unplaced⟩

/-- The same error at the start of the source. -/
def ParseError.unplaced : ParseError → ParseError
  | invalidIndentation _ => invalidIndentation ⟨0, 0⟩
  | missingArgument instruction _ => missingArgument instruction ⟨0, 0⟩
  | unexpectedToken token _ => unexpectedToken token ⟨0, 0⟩
  | invalidRepeatCount value _ => invalidRepeatCount value ⟨0, 0⟩
  | invalidDirection value _ => invalidDirection value ⟨0, 0⟩
  | unknownCondition name _ => unknownCondition name ⟨0, 0⟩
  | unexpectedElse _ => unexpectedElse ⟨0, 0⟩
  | nestingTooDeep depth _ => nestingTooDeep depth ⟨0, 0⟩

namespace Line

/-! ### Words -/

/-- Asking for no more words goes the same way wherever they stand. -/
theorem no_more_unplaced (words : List Word) :
    noMore (words.map Word.unplaced) = (noMore words).mapError ParseError.unplaced := by
  cases words <;> rfl

/-- Asking for an argument goes the same way wherever the words stand. -/
theorem argument_unplaced (keyword : Word) (words : List Word) :
    argument keyword.unplaced (words.map Word.unplaced) =
      ((argument keyword words).map Word.unplaced).mapError ParseError.unplaced := by
  cases words with
  | nil => rfl
  | cons word rest =>
      rw [List.map_cons, argument, argument, no_more_unplaced]
      cases noMore rest <;> rfl

/-- A side is read in the same way wherever its word stands. -/
theorem side_unplaced (word : Word) :
    side word.unplaced = (side word).mapError ParseError.unplaced := by
  unfold side Word.unplaced
  split_ifs <;> rfl

/-- A count is read in the same way wherever its word stands. -/
theorem count_unplaced (word : Word) :
    count word.unplaced = (count word).mapError ParseError.unplaced := by
  unfold count Word.unplaced
  cases Text.numeral word.text.toList <;> rfl

/-- A condition is read in the same way wherever its words stand. -/
theorem condition_unplaced (words : List Word) :
    condition (words.map Word.unplaced) = (condition words).mapError ParseError.unplaced := by
  cases words with
  | nil => rfl
  | cons word rest =>
      rw [List.map_cons, condition, condition, no_more_unplaced]
      rw [show word.unplaced.text = word.text from rfl]
      cases Condition.ofName? word.text with
      | none => rfl
      | some condition => cases noMore rest <;> rfl

/-- Whether a line is an else does not depend on where it stands. -/
theorem is_else_unplaced (line : Line) : line.unplaced.isElse = line.isElse := by
  unfold isElse unplaced
  cases line.words <;> rfl

/-- A text has the same words wherever it starts. -/
theorem words_from_unplaced (cs begun : List Char) (offset offset' : Nat) :
    (wordsFrom cs offset begun).map Word.unplaced =
      (wordsFrom cs offset' begun).map Word.unplaced := by
  induction cs generalizing begun offset offset' with
  | nil =>
      rw [wordsFrom, wordsFrom]
      split_ifs <;> rfl
  | cons c cs ih =>
      rw [wordsFrom, wordsFrom]
      dsimp only
      split_ifs
      · exact ih _ _ _
      · rw [List.map_cons, List.map_cons, ih]
        rfl
      · exact ih _ _ _

/-- A line says the same wherever it stands. -/
theorem head_unplaced (line : Line) :
    line.unplaced.head = line.head.mapError ParseError.unplaced := by
  have hmap {α β : Type} (result : Except ParseError α) (f : α → β) :
      (result.mapError ParseError.unplaced).map f =
        (result.map f).mapError ParseError.unplaced := by
    cases result <;> rfl
  unfold head
  rw [show line.unplaced.words = line.words.map Word.unplaced from rfl]
  cases line.words with
  | nil => rfl
  | cons keyword rest =>
      rw [List.map_cons]
      dsimp only
      rw [show keyword.unplaced.text = keyword.text from rfl]
      split
      · rw [no_more_unplaced, hmap]
      · rw [no_more_unplaced, hmap]
      · rw [argument_unplaced]
        cases argument keyword rest with
        | error error => rfl
        | ok word =>
            show (side word.unplaced).map _ = ((side word).map _).mapError _
            rw [side_unplaced, hmap]
      · rw [argument_unplaced]
        cases argument keyword rest with
        | error error => rfl
        | ok word =>
            show (count word.unplaced).map _ = ((count word).map _).mapError _
            rw [count_unplaced, hmap]
      · rw [condition_unplaced, hmap]
      · rfl
      · rw [no_more_unplaced, hmap]

/-- What a line says it says at the start of the source. -/
theorem unplaced_says {line : Line} {head : Head} (h : line.head = .ok head) :
    line.unplaced.head = .ok head := by
  rw [head_unplaced, h]
  rfl

/-- A line that says nothing is refused for the same reason at the start of the source. -/
theorem unplaced_refuses {line : Line} {error : ParseError} (h : line.head = .error error) :
    line.unplaced.head = .error error.unplaced := by
  rw [head_unplaced, h]
  rfl

/-- What no `else` follows is followed by none without places. -/
theorem unplaced_no_else {indent : Nat} {lines : List Line}
    (h : ∀ next ∈ lines.head?, ¬ (next.indent = indent ∧ next.isElse = true)) :
    ∀ next ∈ (lines.map unplaced).head?, ¬ (next.indent = indent ∧ next.isElse = true) := by
  intro next hnext
  rw [List.head?_map] at hnext
  obtain ⟨first, hfirst, rfl⟩ := Option.map_eq_some_iff.1 hnext
  rw [is_else_unplaced]
  exact h first hfirst

/-- A line with one word has one word at the start of the source. -/
theorem unplaced_alone {line : Line} (h : line.words.drop 1 = []) :
    line.unplaced.words.drop 1 = [] := by
  rw [unplaced, ← List.map_drop, h]
  rfl

/-! ### Raw lines -/

/-- The lines of a text, apart from their places. -/
def unplacedAll (result : Except ParseError (List Line)) : Except ParseError (List Line) :=
  (result.map (List.map unplaced)).mapError ParseError.unplaced

/-- What counts of the raw lines of a text. -/
def kept (raws : List (List Char)) : List (List Char) :=
  (raws.map content).filter (! ·.isEmpty)

variable {raw : List Char} {raws raws' : List (List Char)} {unit : Option Nat}

/-- A line of which nothing counts is not kept. -/
theorem kept_cons_of_nil (h : content raw = []) : kept (raw :: raws) = kept raws := by
  simp [kept, h]

/-- Of a line of which something counts this is kept. -/
theorem kept_cons_of_ne_nil (h : content raw ≠ []) :
    kept (raw :: raws) = content raw :: kept raws := by
  simp [kept, h]

/-- A raw line is read to the same effect wherever it stands. -/
theorem of_content_unplaced (raw : List Char) (offset offset' : Nat) (unit : Option Nat) :
    (∃ error error', ofContent (content raw) offset unit = .error error ∧
      ofContent (content raw) offset' unit = .error error' ∧ error.unplaced = error'.unplaced) ∨
    ∃ line line' next, ofContent (content raw) offset unit = .ok (line, next) ∧
      ofContent (content raw) offset' unit = .ok (line', next) ∧
      line.map unplaced = line'.map unplaced := by
  rw [of_content_eq raw offset, of_content_eq raw offset']
  by_cases hbody : body raw = []
  · rw [if_pos hbody, if_pos hbody]
    exact .inr ⟨none, none, unit, rfl, rfl, rfl⟩
  rw [if_neg hbody, if_neg hbody]
  cases level? (margin raw) unit with
  | none => exact .inl ⟨_, _, rfl, rfl, rfl⟩
  | some level =>
      dsimp only
      by_cases hdeep : maxNesting < level.1
      · rw [if_pos hdeep, if_pos hdeep]
        exact .inl ⟨_, _, rfl, rfl, rfl⟩
      · rw [if_neg hdeep, if_neg hdeep]
        refine .inr ⟨_, _, _, rfl, rfl, ?_⟩
        rw [Option.map_some, Option.map_some, unplaced, unplaced,
          words_from_unplaced _ _ (bodySpan raw offset).start (bodySpan raw offset').start]

/-- A line that can be read comes before the lines that follow it. -/
theorem of_raw_cons {line : Option Line} {offset : Nat} {unit next : Option Nat}
    (h : ofContent (content raw) offset unit = .ok (line, next)) :
    ofRaw (raw :: raws) offset unit =
      (ofRaw raws (offset + Text.byteSize raw) next).map (line.toList ++ ·) := by
  rw [ofRaw, h]
  dsimp only
  cases ofRaw raws (offset + Text.byteSize raw) next <;> rfl

/-- A line that cannot be read is the error of the whole text. -/
theorem of_raw_cons_error {error : ParseError} {offset : Nat} {unit : Option Nat}
    (h : ofContent (content raw) offset unit = .error error) :
    ofRaw (raw :: raws) offset unit = .error error := by
  rw [ofRaw, h]

/-- A raw line without a content is passed over. -/
theorem of_raw_cons_of_nil (h : content raw = []) (offset : Nat) (unit : Option Nat) :
    ofRaw (raw :: raws) offset unit = ofRaw raws (offset + Text.byteSize raw) unit := by
  have hcontent : ofContent (content raw) offset unit = .ok (none, unit) := by
    rw [h]
    rfl
  rw [of_raw_cons hcontent]
  cases ofRaw raws (offset + Text.byteSize raw) unit <;> rfl

/-- One line more in front is one line more at the start of the source. -/
theorem unplaced_all_map (line : Option Line) (result : Except ParseError (List Line)) :
    unplacedAll (result.map (line.toList ++ ·)) =
      (unplacedAll result).map ((line.map unplaced).toList ++ ·) := by
  cases result with
  | error error => rfl
  | ok lines =>
      show Except.ok ((line.toList ++ lines).map unplaced) = Except.ok _
      rw [List.map_append]
      cases line <;> rfl

/-- What is read from raw lines, apart from places, is read from what counts of them. -/
theorem of_raw_unplaced (raws : List (List Char)) (offset offset' : Nat) (unit : Option Nat) :
    unplacedAll (ofRaw raws offset unit) = unplacedAll (ofRaw (kept raws) offset' unit) := by
  induction raws generalizing offset offset' unit with
  | nil => rfl
  | cons raw raws ih =>
      by_cases hempty : content raw = []
      · rw [kept_cons_of_nil hempty, of_raw_cons_of_nil hempty]
        exact ih _ _ _
      rw [kept_cons_of_ne_nil hempty]
      have hsame (start : Nat) (unit : Option Nat) :
          ofContent (content (content raw)) start unit = ofContent (content raw) start unit := by
        rw [content_content]
      obtain ⟨error, error', herror, herror', heq⟩ | ⟨line, line', next, hline, hline', heq⟩ :=
        of_content_unplaced raw offset offset' unit
      · rw [of_raw_cons_error herror, of_raw_cons_error ((hsame _ _).trans herror')]
        show Except.error error.unplaced = Except.error error'.unplaced
        rw [heq]
      · rw [of_raw_cons hline, of_raw_cons ((hsame _ _).trans hline'), unplaced_all_map,
          unplaced_all_map, heq, ih]

end Line

namespace Program

variable {indent : Nat} {lines rest : List Line} {program : Program} {error : ParseError}

/-- A block is parsed in the same way wherever its lines stand. -/
theorem Parses.unplaced (h : Parses indent lines program rest) :
    Parses indent (lines.map Line.unplaced) program (rest.map Line.unplaced) := by
  induction h with
  | done h =>
      refine .done fun line hline => ?_
      rw [List.head?_map] at hline
      obtain ⟨first, hfirst, rfl⟩ := Option.map_eq_some_iff.1 hline
      exact h first hfirst
  | simple hindent hhead _ ih => exact .simple hindent (Line.unplaced_says hhead) ih
  | loop hindent hhead _ _ ihbody ihrest =>
      exact .loop hindent (Line.unplaced_says hhead) ihbody ihrest
  | branch hindent hhead _ helse _ ihtrue ihrest =>
      exact .branch hindent (Line.unplaced_says hhead) ihtrue (Line.unplaced_no_else helse) ihrest
  | branchElse hindent hhead _ hnext helse hwords _ _ ihtrue ihfalse ihrest =>
      exact .branchElse hindent (Line.unplaced_says hhead) ihtrue hnext
        ((Line.is_else_unplaced _).trans helse) (Line.unplaced_alone hwords) ihfalse ihrest

/-- A block fails in the same way wherever its lines stand. -/
theorem Fails.unplaced (h : Fails indent lines error) :
    Fails indent (lines.map Line.unplaced) error.unplaced := by
  induction h with
  | deeper hindent => exact .deeper hindent
  | head hindent hhead => exact .head hindent (Line.unplaced_refuses hhead)
  | afterSimple hindent hhead _ ih => exact .afterSimple hindent (Line.unplaced_says hhead) ih
  | inLoop hindent hhead _ ih => exact .inLoop hindent (Line.unplaced_says hhead) ih
  | afterLoop hindent hhead hbody _ ih =>
      exact .afterLoop hindent (Line.unplaced_says hhead) hbody.unplaced ih
  | inBranch hindent hhead _ ih => exact .inBranch hindent (Line.unplaced_says hhead) ih
  | afterBranch hindent hhead htrue helse _ ih =>
      exact .afterBranch hindent (Line.unplaced_says hhead) htrue.unplaced
        (Line.unplaced_no_else helse) ih
  | @elseWords _ _ _ _ _ next _ _ hindent hhead htrue hnext helse hwords =>
      refine .elseWords hindent (Line.unplaced_says hhead) htrue.unplaced hnext
        ((Line.is_else_unplaced next).trans helse) ?_
      rw [Line.unplaced, ← List.map_drop, Line.no_more_unplaced, hwords]
      rfl
  | inElse hindent hhead htrue hnext helse hwords _ ih =>
      exact .inElse hindent (Line.unplaced_says hhead) htrue.unplaced hnext
        ((Line.is_else_unplaced _).trans helse) (Line.unplaced_alone hwords) ih
  | afterElse hindent hhead htrue hnext helse hwords hfalse _ ih =>
      exact .afterElse hindent (Line.unplaced_says hhead) htrue.unplaced hnext
        ((Line.is_else_unplaced _).trans helse) (Line.unplaced_alone hwords) hfalse.unplaced ih

/-- Lines are read in the same way wherever they stand. -/
theorem of_lines_unplaced (lines : List Line) :
    ofLines (lines.map Line.unplaced) = (ofLines lines).mapError ParseError.unplaced := by
  cases h : ofLines lines with
  | error error => exact of_lines_eq_error_iff.2 (of_lines_eq_error_iff.1 h).unplaced
  | ok program => exact of_lines_eq_ok_iff.2 (of_lines_eq_ok_iff.1 h).unplaced

/-- What is read from a text, apart from places, is read from what counts of its lines. -/
theorem parse_unplaced (source : String) :
    (parse source).mapError ParseError.unplaced =
      ((Line.unplacedAll (Line.ofRaw (Line.kept (Text.lines source.toList)) 0 none)).bind
        ofLines) := by
  rw [← Line.of_raw_unplaced _ 0, parse, Line.split]
  cases Line.ofRaw (Text.lines source.toList) 0 none with
  | error error => rfl
  | ok lines => exact (of_lines_unplaced lines).symm

end Program

end TileCourse
