import TileCourse.Program.Parser
import TileCourse.Proofs.Outcome

/-!
# The grammar of program texts

`Parses` says which lines make up a block, by one rule for each form of an instruction. The parser
follows these rules: it reads a block exactly if they derive it. What holds of a rule then holds
of everything the parser reads, by induction on the derivation.
-/

namespace TileCourse

namespace Program

/-- The lines start with a block of an indentation, with the rest after it. -/
inductive Parses : Nat → List Line → Program → List Line → Prop where
  | done {indent rest} (h : ∀ line ∈ rest.head?, line.indent < indent) :
      Parses indent rest [] rest
  | simple {indent line rest instruction others after} (hindent : line.indent = indent)
      (hhead : line.head = .ok (.simple instruction)) (hrest : Parses indent rest others after) :
      Parses indent (line :: rest) (instruction :: others) after
  | loop {indent line rest times body middle others after} (hindent : line.indent = indent)
      (hhead : line.head = .ok (.loop times)) (hbody : Parses (indent + 1) rest body middle)
      (hrest : Parses indent middle others after) :
      Parses indent (line :: rest) (.loop times body :: others) after
  /-- A branch that no `else` of its own indentation follows. -/
  | branch {indent line rest condition whenTrue middle others after}
      (hindent : line.indent = indent) (hhead : line.head = .ok (.branch condition))
      (htrue : Parses (indent + 1) rest whenTrue middle)
      (helse : ∀ next ∈ middle.head?, ¬ (next.indent = indent ∧ next.isElse = true))
      (hrest : Parses indent middle others after) :
      Parses indent (line :: rest) (.branch condition whenTrue [] :: others) after
  | branchElse {indent line rest condition whenTrue next middle whenFalse final others after}
      (hindent : line.indent = indent) (hhead : line.head = .ok (.branch condition))
      (htrue : Parses (indent + 1) rest whenTrue (next :: middle))
      (hnext : next.indent = indent) (helse : next.isElse = true)
      (hwords : next.words.drop 1 = [])
      (hfalse : Parses (indent + 1) middle whenFalse final)
      (hrest : Parses indent final others after) :
      Parses indent (line :: rest) (.branch condition whenTrue whenFalse :: others) after

variable {indent : Nat} {lines rest : List Line} {program : Program}

/-- No more words are asked for exactly if there are none. -/
theorem no_more_eq_ok_iff {words : List Word} : Line.noMore words = .ok () ↔ words = [] := by
  cases words with
  | nil => simp [Line.noMore]
  | cons => simp [Line.noMore]

/-- What the parser reads is derived by the rules. -/
theorem parses_of_parse_block {block : Block lines.length}
    (h : parseBlock indent lines = .ok block) : Parses indent lines block.body block.rest := by
  fun_induction parseBlock indent lines
  case case1 =>
      cases h
      exact .done (by simp)
  case case2 line rest hless =>
      cases h
      exact .done (by simpa using hless)
  case case6 line rest hge hle instruction hhead others hothers ih =>
      cases h
      exact .simple (by omega) hhead (ih hothers)
  case case9 line rest hge hle times hhead body middle hmiddle hbody others hothers ihbody ihrest =>
      cases h
      exact .loop (by omega) hhead (ihbody hbody) (ihrest hothers)
  case case11 line rest hge hle condition hhead whenTrue hmiddle htrue ih =>
      cases h
      exact .branch (by omega) hhead (ih htrue) (by simp) (.done (by simp))
  case case15 line rest hge hle condition hhead whenTrue next middle hmiddle htrue hnext hwords
      hless whenFalse final hfinal hfalse others hothers ihtrue ihfalse ihrest =>
      cases h
      exact .branchElse (by omega) hhead (ihtrue htrue) hnext.1 hnext.2 (no_more_eq_ok_iff.1 hwords)
        (ihfalse hfalse) (ihrest hothers)
  case case17 line rest hge hle condition hhead whenTrue next middle hmiddle htrue hnext others
      hothers ihtrue ihrest =>
      cases h
      exact .branch (by omega) hhead (ihtrue htrue) (by simpa using hnext) (ihrest hothers)
  -- In the remaining cases the parser has refused a line.
  all_goals cases h

/-- No line is added to the rest. -/
theorem Parses.length_le (h : Parses indent lines program rest) : rest.length ≤ lines.length := by
  induction h with
  | done => exact Nat.le_refl _
  | simple _ _ _ ih => exact Nat.le_succ_of_le ih
  | loop _ _ _ _ ihbody ihrest => exact Nat.le_succ_of_le (Nat.le_trans ihrest ihbody)
  | branch _ _ _ _ _ ihtrue ihrest => exact Nat.le_succ_of_le (Nat.le_trans ihrest ihtrue)
  | branchElse _ _ _ _ _ _ _ _ ihtrue ihfalse ihrest =>
      simp only [List.length_cons] at ihtrue ⊢
      omega

/-- What the rules derive is read by the parser. -/
theorem Parses.parse_block (h : Parses indent lines program rest) :
    parseBlock indent lines = .ok ⟨program, rest, h.length_le⟩ := by
  induction h with
  | @done indent rest h =>
      cases rest with
      | nil => rw [parseBlock]
      | cons line rest => rw [parseBlock, if_pos (h line rfl)]
  | simple hindent hhead hrest ih =>
      rw [parseBlock, if_neg (by omega), if_neg (by omega), hhead]
      simp only [ih]
  | loop hindent hhead hbody hrest ihbody ihrest =>
      rw [parseBlock, if_neg (by omega), if_neg (by omega), hhead]
      simp only [ihbody, ihrest]
  | @branch indent line rest condition whenTrue middle others after hindent hhead htrue helse hrest
      ihtrue ihrest =>
      rw [parseBlock, if_neg (by omega), if_neg (by omega), hhead]
      simp only [ihtrue]
      cases middle with
      | nil =>
          cases hrest
          rfl
      | cons next middle =>
          simp only [if_neg (helse next rfl), ihrest]
  | branchElse hindent hhead htrue hnext helse hwords hfalse hrest ihtrue ihfalse ihrest =>
      rw [parseBlock, if_neg (by omega), if_neg (by omega), hhead]
      simp only [ihtrue]
      rw [if_pos ⟨hnext, helse⟩, hwords]
      simp only [Line.noMore, ihfalse, ihrest]

/-- A program is read from lines exactly if they are a block without indentation. -/
theorem of_lines_eq_ok_iff : ofLines lines = .ok program ↔ Parses 0 lines program [] := by
  constructor
  · intro h
    unfold ofLines at h
    split at h
    · cases h
    · rename_i block hblock
      have hparses := parses_of_parse_block hblock
      split at h
      · rename_i hrest
        cases h
        exact hrest ▸ hparses
      · cases h
  · intro h
    rw [ofLines, h.parse_block]

end Program

end TileCourse
