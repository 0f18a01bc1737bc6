import TileCourse.Proofs.Program.Derivation

/-!
# What the parser refuses

`Program.Parses` says how lines are read, and `Program.Fails` says where reading them ends: at the
first line that cannot be read, however deep the block in which it stands. The two relations leave
nothing out (`of_lines_eq_error_iff`), so what holds of their rules holds of all that the parser
does. The line at which it stops is to blame, with its place or with one of its words
(`Program.Fails.exists_blamed`).
-/

namespace TileCourse

/-! ### Words and lines to blame -/

/-- An error is about a word: it gives the text of the word and its place. -/
inductive Word.Blamed (word : Word) : ParseError → Prop where
  | missing : Blamed word (.missingArgument word.text word.span)
  | unexpected : Blamed word (.unexpectedToken word.text word.span)
  | count : Blamed word (.invalidRepeatCount word.text word.span)
  | side : Blamed word (.invalidDirection word.text word.span)
  | condition : Blamed word (.unknownCondition word.text word.span)
  | loneElse (htext : word.text = "else") : Blamed word (.unexpectedElse word.span)

namespace Line

variable {line : Line} {keyword word : Word} {words : List Word} {error : ParseError}

/-- An error is about a line: about its depth, or about one of its words. -/
def Blamed (line : Line) (error : ParseError) : Prop :=
  error = .invalidIndentation line.span ∨ ∃ word ∈ line.words, word.Blamed error

/-- A word too many is blamed for the error about it. -/
theorem blamed_of_no_more (h : noMore words = .error error) : ∃ word ∈ words, word.Blamed error := by
  cases words with
  | nil => cases h
  | cons word rest =>
      cases h
      exact ⟨word, by simp, .unexpected⟩

/-- A missing argument is blamed on the keyword, and a word too many on itself. -/
theorem blamed_of_argument (h : argument keyword words = .error error) :
    ∃ word ∈ keyword :: words, word.Blamed error := by
  cases words with
  | nil =>
      cases h
      exact ⟨keyword, by simp, .missing⟩
  | cons word rest =>
      obtain ⟨extra, hextra, hblamed⟩ := blamed_of_no_more (map_eq_error_iff.1 h)
      exact ⟨extra, by simp [hextra], hblamed⟩

/-- A word that is no side is blamed for the error about it. -/
theorem blamed_of_side (h : side word = .error error) : word.Blamed error := by
  unfold side at h
  split_ifs at h
  cases h
  exact .side

/-- A word that is no count is blamed for the error about it. -/
theorem blamed_of_count (h : count word = .error error) : word.Blamed error := by
  unfold count at h
  split at h
  · cases h
  · cases h
    exact .count

/-- A word that is no condition, or one too many, is blamed for the error about it. -/
theorem blamed_of_condition (h : condition words = .error error) :
    ∃ word ∈ words, word.Blamed error := by
  unfold condition at h
  split at h
  · cases h
  · rename_i word rest
    split at h
    · cases h
      exact ⟨word, by simp, .condition⟩
    · obtain ⟨extra, hextra, hblamed⟩ := blamed_of_no_more (map_eq_error_iff.1 h)
      exact ⟨extra, by simp [hextra], hblamed⟩

/-- A line that says nothing is to blame for it, or one of its words is. -/
theorem blamed_of_head (h : line.head = .error error) : line.Blamed error := by
  unfold head at h
  split at h
  · cases h
    exact .inl rfl
  · rename_i keyword rest hwords
    have hrest (hblamed : ∃ word ∈ rest, word.Blamed error) : line.Blamed error := by
      obtain ⟨word, hword, hblamed⟩ := hblamed
      exact .inr ⟨word, by simp [hwords, hword], hblamed⟩
    have hmem {word : Word} (hargument : argument keyword rest = .ok word) : word ∈ line.words := by
      simp [hwords, eq_of_argument hargument]
    have hmissing (hargument : argument keyword rest = .error error) : line.Blamed error := by
      obtain ⟨word, hword, hblamed⟩ := blamed_of_argument hargument
      exact .inr ⟨word, hwords ▸ hword, hblamed⟩
    split at h
    case h_1 | h_2 | h_7 => exact hrest (blamed_of_no_more (map_eq_error_iff.1 h))
    case h_3 =>
      split at h
      · rename_i error' hargument
        cases h
        exact hmissing hargument
      · rename_i word hargument
        exact .inr ⟨word, hmem hargument, blamed_of_side (map_eq_error_iff.1 h)⟩
    case h_4 =>
      split at h
      · rename_i error' hargument
        cases h
        exact hmissing hargument
      · rename_i word hargument
        exact .inr ⟨word, hmem hargument, blamed_of_count (map_eq_error_iff.1 h)⟩
    case h_5 => exact hrest (blamed_of_condition (map_eq_error_iff.1 h))
    case h_6 htext =>
      cases h
      exact .inr ⟨keyword, by simp [hwords], .loneElse htext⟩

end Line

/-! ### The rules of refusal -/

namespace Program

/-- Reading a block of an indentation ends with an error. -/
inductive Fails : Nat → List Line → ParseError → Prop where
  | deeper {indent line rest} (hindent : indent < line.indent) :
      Fails indent (line :: rest) (.invalidIndentation line.span)
  | head {indent line rest error} (hindent : line.indent = indent)
      (hhead : line.head = .error error) : Fails indent (line :: rest) error
  | afterSimple {indent line rest instruction error} (hindent : line.indent = indent)
      (hhead : line.head = .ok (.simple instruction)) (hrest : Fails indent rest error) :
      Fails indent (line :: rest) error
  | inLoop {indent line rest times error} (hindent : line.indent = indent)
      (hhead : line.head = .ok (.loop times)) (hbody : Fails (indent + 1) rest error) :
      Fails indent (line :: rest) error
  | afterLoop {indent line rest times body middle error} (hindent : line.indent = indent)
      (hhead : line.head = .ok (.loop times)) (hbody : Parses (indent + 1) rest body middle)
      (hrest : Fails indent middle error) : Fails indent (line :: rest) error
  | inBranch {indent line rest condition error} (hindent : line.indent = indent)
      (hhead : line.head = .ok (.branch condition)) (htrue : Fails (indent + 1) rest error) :
      Fails indent (line :: rest) error
  | afterBranch {indent line rest condition whenTrue middle error} (hindent : line.indent = indent)
      (hhead : line.head = .ok (.branch condition))
      (htrue : Parses (indent + 1) rest whenTrue middle)
      (helse : ∀ next ∈ middle.head?, ¬ (next.indent = indent ∧ next.isElse = true))
      (hrest : Fails indent middle error) : Fails indent (line :: rest) error
  /-- There is more on the line of an `else`. -/
  | elseWords {indent line rest condition whenTrue next middle error}
      (hindent : line.indent = indent) (hhead : line.head = .ok (.branch condition))
      (htrue : Parses (indent + 1) rest whenTrue (next :: middle))
      (hnext : next.indent = indent) (helse : next.isElse = true)
      (hwords : Line.noMore (next.words.drop 1) = .error error) :
      Fails indent (line :: rest) error
  | inElse {indent line rest condition whenTrue next middle error}
      (hindent : line.indent = indent) (hhead : line.head = .ok (.branch condition))
      (htrue : Parses (indent + 1) rest whenTrue (next :: middle))
      (hnext : next.indent = indent) (helse : next.isElse = true)
      (hwords : next.words.drop 1 = []) (hfalse : Fails (indent + 1) middle error) :
      Fails indent (line :: rest) error
  | afterElse {indent line rest condition whenTrue next middle whenFalse final error}
      (hindent : line.indent = indent) (hhead : line.head = .ok (.branch condition))
      (htrue : Parses (indent + 1) rest whenTrue (next :: middle))
      (hnext : next.indent = indent) (helse : next.isElse = true)
      (hwords : next.words.drop 1 = []) (hfalse : Parses (indent + 1) middle whenFalse final)
      (hrest : Fails indent final error) : Fails indent (line :: rest) error

variable {indent : Nat} {lines rest : List Line} {program : Program} {error : ParseError}

/-- The error with which the parser ends is one of these. -/
theorem fails_of_parse_block (h : parseBlock indent lines = .error error) :
    Fails indent lines error := by
  fun_induction parseBlock indent lines
  case case3 line rest hge hless =>
      cases h
      exact .deeper hless
  case case4 line rest hge hle error' hhead =>
      cases h
      exact .head (by omega) hhead
  case case5 line rest hge hle instruction hhead error' hrest ih =>
      cases h
      exact .afterSimple (by omega) hhead (ih hrest)
  case case7 line rest hge hle times hhead error' hbody ih =>
      cases h
      exact .inLoop (by omega) hhead (ih hbody)
  case case8 line rest hge hle times hhead body middle hmiddle hbody error' hrest ihbody ihrest =>
      cases h
      exact .afterLoop (by omega) hhead (parses_of_parse_block hbody) (ihrest hrest)
  case case10 line rest hge hle condition hhead error' htrue ih =>
      cases h
      exact .inBranch (by omega) hhead (ih htrue)
  case case12 line rest hge hle condition hhead whenTrue next middle hmiddle htrue hnext error'
      hwords ih =>
      cases h
      exact .elseWords (by omega) hhead (parses_of_parse_block htrue) hnext.1 hnext.2 hwords
  case case13 line rest hge hle condition hhead whenTrue next middle hmiddle htrue hnext hwords
      hless error' hfalse ihtrue ih =>
      cases h
      exact .inElse (by omega) hhead (parses_of_parse_block htrue) hnext.1 hnext.2
        (no_more_eq_ok_iff.1 hwords) (ih hfalse)
  case case14 line rest hge hle condition hhead whenTrue next middle hmiddle htrue hnext hwords
      hless whenFalse final hfinal hfalse error' hrest ihtrue ihfalse ih =>
      cases h
      exact .afterElse (by omega) hhead (parses_of_parse_block htrue) hnext.1 hnext.2
        (no_more_eq_ok_iff.1 hwords) (parses_of_parse_block hfalse) (ih hrest)
  case case16 line rest hge hle condition hhead whenTrue next middle hmiddle htrue hnext error'
      hrest ihtrue ih =>
      cases h
      exact .afterBranch (by omega) hhead (parses_of_parse_block htrue) (by simpa using hnext)
        (ih hrest)
  -- In the remaining cases the parser has read a block.
  all_goals cases h

/-- Where these rules end with an error, the parser does. -/
theorem Fails.parse_block (h : Fails indent lines error) :
    parseBlock indent lines = .error error := by
  induction h with
  | deeper hindent => rw [parseBlock, if_neg (by omega), if_pos hindent]
  | head hindent hhead => rw [parseBlock, if_neg (by omega), if_neg (by omega), hhead]
  | afterSimple hindent hhead hrest ih =>
      rw [parseBlock, if_neg (by omega), if_neg (by omega), hhead]
      simp only [ih]
  | inLoop hindent hhead hbody ih =>
      rw [parseBlock, if_neg (by omega), if_neg (by omega), hhead]
      simp only [ih]
  | afterLoop hindent hhead hbody hrest ih =>
      rw [parseBlock, if_neg (by omega), if_neg (by omega), hhead]
      simp only [hbody.parse_block, ih]
  | inBranch hindent hhead htrue ih =>
      rw [parseBlock, if_neg (by omega), if_neg (by omega), hhead]
      simp only [ih]
  | @afterBranch indent line rest condition whenTrue middle error hindent hhead htrue helse hrest
      ih =>
      rw [parseBlock, if_neg (by omega), if_neg (by omega), hhead]
      simp only [htrue.parse_block]
      cases middle with
      | nil => cases hrest
      | cons next middle => simp only [if_neg (helse next rfl), ih]
  | elseWords hindent hhead htrue hnext helse hwords =>
      rw [parseBlock, if_neg (by omega), if_neg (by omega), hhead]
      simp only [htrue.parse_block]
      rw [if_pos ⟨hnext, helse⟩, hwords]
  | inElse hindent hhead htrue hnext helse hwords hfalse ih =>
      rw [parseBlock, if_neg (by omega), if_neg (by omega), hhead]
      simp only [htrue.parse_block]
      rw [if_pos ⟨hnext, helse⟩, hwords]
      simp only [Line.noMore, ih]
  | afterElse hindent hhead htrue hnext helse hwords hfalse hrest ih =>
      rw [parseBlock, if_neg (by omega), if_neg (by omega), hhead]
      simp only [htrue.parse_block]
      rw [if_pos ⟨hnext, helse⟩, hwords]
      simp only [Line.noMore, hfalse.parse_block, ih]

/-- Lines are refused with an error exactly if reading them as a block without indentation ends with
it: after such a block no line is left. -/
theorem of_lines_eq_error_iff : ofLines lines = .error error ↔ Fails 0 lines error := by
  constructor
  · intro h
    unfold ofLines at h
    split at h
    · rename_i error' hblock
      cases h
      exact fails_of_parse_block hblock
    · rename_i block hblock
      split at h
      · cases h
      · rename_i line rest hrest
        have hends := (parses_of_parse_block hblock).ends line (by simp [hrest])
        exact absurd hends (Nat.not_lt_zero _)
  · intro h
    rw [ofLines, h.parse_block]

/-- What is left after a block is the end of the lines. -/
theorem Parses.suffix (h : Parses indent lines program rest) : rest <:+ lines := by
  induction h with
  | done => exact List.suffix_rfl
  | simple _ _ _ ih => exact ih.trans (List.suffix_cons _ _)
  | loop _ _ _ _ ihbody ihrest => exact (ihrest.trans ihbody).trans (List.suffix_cons _ _)
  | branch _ _ _ _ _ ihtrue ihrest => exact (ihrest.trans ihtrue).trans (List.suffix_cons _ _)
  | branchElse _ _ _ _ _ _ _ _ ihtrue ihfalse ihrest =>
      have hmiddle := (List.suffix_cons _ _).trans ihtrue
      exact ((ihrest.trans ihfalse).trans hmiddle).trans (List.suffix_cons _ _)

/-- A line to blame among the last lines is one of all the lines. -/
theorem exists_blamed_of_suffix {few all : List Line} (hsuffix : few <:+ all)
    (h : ∃ line ∈ few, line.Blamed error) : ∃ line ∈ all, line.Blamed error := by
  obtain ⟨line, hline, hblamed⟩ := h
  exact ⟨line, hsuffix.subset hline, hblamed⟩

/-- Every error is about one of the lines. -/
theorem Fails.exists_blamed (h : Fails indent lines error) : ∃ line ∈ lines, line.Blamed error := by
  induction h with
  | deeper => exact ⟨_, by simp, .inl rfl⟩
  | head _ hhead => exact ⟨_, by simp, Line.blamed_of_head hhead⟩
  | afterSimple _ _ _ ih | inLoop _ _ _ ih | inBranch _ _ _ ih =>
      exact exists_blamed_of_suffix (List.suffix_cons _ _) ih
  | afterLoop _ _ hbody _ ih =>
      exact exists_blamed_of_suffix (hbody.suffix.trans (List.suffix_cons _ _)) ih
  | afterBranch _ _ htrue _ _ ih =>
      exact exists_blamed_of_suffix (htrue.suffix.trans (List.suffix_cons _ _)) ih
  | @elseWords _ _ _ _ _ next middle _ _ _ htrue _ _ hwords =>
      obtain ⟨word, hword, hblamed⟩ := Line.blamed_of_no_more hwords
      have hnext : next ∈ next :: middle := by simp
      exact ⟨next, List.mem_cons_of_mem _ (htrue.suffix.subset hnext),
        .inr ⟨word, List.mem_of_mem_drop hword, hblamed⟩⟩
  | inElse _ _ htrue _ _ _ _ ih =>
      have hmiddle := (List.suffix_cons _ _).trans htrue.suffix
      exact exists_blamed_of_suffix (hmiddle.trans (List.suffix_cons _ _)) ih
  | afterElse _ _ htrue _ _ _ hfalse _ ih =>
      have hmiddle := (List.suffix_cons _ _).trans htrue.suffix
      exact exists_blamed_of_suffix
        ((hfalse.suffix.trans hmiddle).trans (List.suffix_cons _ _)) ih

end Program

end TileCourse
