import TileCourse.Proofs.Program.RoundTrip

/-!
# The language of program texts

The grammar of program texts, said without the parser. `Line.Means` says what the words of one line
mean, and a `Derivation` is a tree over whole lines: it lists every line of a block once, in order,
with the lines of each body under its head. `Program.parse_eq_ok_iff_derived` shows that the parser
accepts exactly this language, that a text has at most one derivation, and that the parser never
has to give up where the grammar leaves nothing to refuse.
-/

namespace TileCourse

/-! ### Numerals -/

namespace Text

/-- Digits are read as their value exactly if the value fits. -/
theorem numeral_from_eq_ok_iff {cs : List Char} {value n : Nat} (hvalue : value < 1 <<< 32) :
    numeralFrom cs value = .ok n ↔
      (∀ c ∈ cs, c.isDigit = true) ∧ Nat.ofDigitChars 10 cs value = n ∧ n < 1 <<< 32 := by
  constructor
  · intro h
    induction cs generalizing value with
    | nil =>
        obtain rfl := Except.ok.inj h
        exact ⟨by simp, rfl, hvalue⟩
    | cons c cs ih =>
        rw [numeralFrom] at h
        split at h
        · rename_i hdigit
          simp only at h
          split at h
          · rename_i hnext
            obtain ⟨hdigits, hn, hfits⟩ := ih hnext h
            refine ⟨List.forall_mem_cons.2 ⟨hdigit, hdigits⟩, ?_, hfits⟩
            rw [Nat.ofDigitChars_cons, Nat.mul_comm]
            exact hn
          · cases h
        · cases h
  · intro h
    obtain ⟨hdigits, rfl, hfits⟩ := h
    exact numeral_from_eq_ok hdigits hfits

/-- A text states a number of 32 bits: decimal digits, after a plus sign if one likes. -/
def States (cs : List Char) (n : UInt32) : Prop :=
  ∃ digits : List Char, digits ≠ [] ∧ (∀ c ∈ digits, c.isDigit = true) ∧
    (cs = digits ∨ cs = '+' :: digits) ∧ Nat.ofDigitChars 10 digits 0 = n.toNat

/-- Digits state the number they are read as. -/
theorem states_of_digits {cs digits : List Char} {n : UInt32} (hne : digits ≠ [])
    (hcs : cs = digits ∨ cs = '+' :: digits)
    (h : (numeralFrom digits 0).map UInt32.ofNat = .ok n) : States cs n := by
  obtain ⟨value, hvalue, rfl⟩ := map_eq_ok_iff.1 h
  obtain ⟨hdigits, hn, hfits⟩ := (numeral_from_eq_ok_iff (by decide)).1 hvalue
  refine ⟨digits, hne, hdigits, hcs, ?_⟩
  rw [hn, UInt32.toNat_ofNat_of_lt' hfits]

/-- A text is read as a numeral exactly if it states a number. -/
theorem numeral_eq_ok_iff {cs : List Char} {n : UInt32} : numeral cs = .ok n ↔ States cs n := by
  constructor
  · intro h
    unfold numeral at h
    split at h
    · cases h
    · cases h
    · rename_i rest hplus
      exact states_of_digits (by simpa using hplus) (.inr rfl) h
    · rename_i hempty _ _
      exact states_of_digits (by simpa using hempty) (.inl rfl) h
  · intro h
    obtain ⟨digits, hne, hdigits, hcs, hn⟩ := h
    obtain ⟨c, rest, rfl⟩ := List.exists_cons_of_ne_nil hne
    have hfrom : numeralFrom (c :: rest) 0 = .ok n.toNat :=
      (numeral_from_eq_ok_iff (by decide)).2 ⟨hdigits, hn, n.toNat_lt⟩
    have hvalue : (numeralFrom (c :: rest) 0).map UInt32.ofNat = .ok n := by
      rw [hfrom]
      simp [Except.map]
    rcases hcs with rfl | rfl
    · have hplus : c ≠ '+' := by
        rintro rfl
        exact absurd (hdigits '+' (by simp)) (by decide)
      unfold numeral
      split <;> simp_all
    · exact hvalue

end Text

/-! ### What one line says -/

namespace Line

/-- The words of a line, without their places. -/
def texts (line : Line) : List String := line.words.map (·.text)

/-- What the words of a line mean, by themselves. -/
inductive Means : List String → Head → Prop where
  | move : Means ["move"] (.simple .move)
  | collect : Means ["collect"] (.simple .collect)
  | turnLeft : Means ["turn", "left"] (.simple (.turn .left))
  | turnRight : Means ["turn", "right"] (.simple (.turn .right))
  /-- A single word that starts no line of another form is an unknown kind. -/
  | other {kind} (h : kind ∉ keywords) : Means [kind] (.simple (.other kind))
  | loop {count times} (h : Text.States count.toList times) : Means ["repeat", count] (.loop times)
  | branch : Means ["if"] (.branch none)
  | tileAhead : Means ["if", "tile-ahead-walkable"] (.branch (some .tileAheadWalkable))
  | remaining : Means ["if", "collectibles-remaining"] (.branch (some .collectiblesRemaining))

variable {line : Line} {head other : Head}

/-- A line whose words are known is read as the phrase of these words. -/
theorem read_as_texts {words : List String} (h : line.texts = words) :
    Phrase.ReadAs ⟨line.indent, words⟩ line := ⟨rfl, h⟩

/-- What the words of a line mean is read from the line. -/
theorem head_of_means (h : Means line.texts head) : line.head = .ok head := by
  generalize htexts : line.texts = texts at h
  have hread := read_as_texts htexts
  cases h with
  | move => exact hread.head_move
  | collect => exact hread.head_collect
  | turnLeft => exact @Phrase.ReadAs.head_turn _ _ .left hread
  | turnRight => exact @Phrase.ReadAs.head_turn _ _ .right hread
  | other h => exact hread.head_other h
  | loop h =>
      obtain ⟨span, after, hwords⟩ := hread.words_two
      simp [Line.head, hwords, argument, noMore, count, Text.numeral_eq_ok_iff.2 h, Except.map]
  | branch => exact @Phrase.ReadAs.head_branch _ _ none hread
  | tileAhead => exact @Phrase.ReadAs.head_branch _ _ (some .tileAheadWalkable) hread
  | remaining => exact @Phrase.ReadAs.head_branch _ _ (some .collectiblesRemaining) hread

/-- The words of a line mean one thing only. -/
theorem Means.unique (h : Means line.texts head) (hother : Means line.texts other) : head = other :=
  Except.ok.inj ((head_of_means h).symm.trans (head_of_means hother))

/-- A word that is had as the only argument is all that follows the keyword. -/
theorem eq_of_argument {keyword word : Word} {rest : List Word}
    (h : argument keyword rest = .ok word) : rest = [word] := by
  cases rest with
  | nil => cases h
  | cons first others =>
      rw [argument, map_eq_ok_iff] at h
      obtain ⟨⟨⟩, hothers, rfl⟩ := h
      rw [Program.no_more_eq_ok_iff.1 hothers]

/-- A word that is read as a side is the name of the side. -/
theorem text_of_side {word : Word} {named : Side} (h : side word = .ok named) :
    word.text = named.name := by
  unfold side at h
  split_ifs at h with hleft hright
  · cases h
    exact hleft
  · cases h
    exact hright

/-- A word that is read as a count states the count. -/
theorem states_of_count {word : Word} {times : UInt32} (h : count word = .ok times) :
    Text.States word.text.toList times := by
  unfold count at h
  split at h
  · rename_i n hnumeral
    cases h
    exact Text.numeral_eq_ok_iff.1 hnumeral
  · cases h

/-- A name that is known as that of a condition is its name. -/
theorem name_of_known {name : String} {condition : Condition}
    (h : Condition.ofName? name = some condition) : name = condition.name := by
  unfold Condition.ofName? at h
  split at h <;> cases h <;> rfl

/-- Words that are read as a condition are its name, or there are none. -/
theorem texts_of_condition {rest : List Word} {asked : Option Condition}
    (h : condition rest = .ok asked) :
    rest.map (·.text) = (asked.map Condition.name).toList := by
  unfold condition at h
  split at h
  · cases h
    rfl
  · split at h
    · cases h
    · rename_i condition hknown
      obtain ⟨⟨⟩, hothers, rfl⟩ := map_eq_ok_iff.1 h
      rw [Program.no_more_eq_ok_iff.1 hothers, List.map_singleton, name_of_known hknown]
      rfl

/-- Whatever is read from a line is what its words mean. -/
theorem means_of_head (h : line.head = .ok head) : Means line.texts head := by
  unfold Line.head at h
  split at h
  · cases h
  · rename_i keyword rest hwords
    have htexts : line.texts = keyword.text :: rest.map (·.text) := by simp [texts, hwords]
    rw [htexts]
    split at h
    case h_1 hkeyword =>
      obtain ⟨⟨⟩, hrest, rfl⟩ := map_eq_ok_iff.1 h
      rw [Program.no_more_eq_ok_iff.1 hrest, hkeyword]
      exact .move
    case h_2 hkeyword =>
      obtain ⟨⟨⟩, hrest, rfl⟩ := map_eq_ok_iff.1 h
      rw [Program.no_more_eq_ok_iff.1 hrest, hkeyword]
      exact .collect
    case h_3 hkeyword =>
      split at h
      · cases h
      · rename_i word hword
        obtain ⟨named, hside, rfl⟩ := map_eq_ok_iff.1 h
        rw [eq_of_argument hword, hkeyword, List.map_singleton, text_of_side hside]
        cases named
        · exact .turnLeft
        · exact .turnRight
    case h_4 hkeyword =>
      split at h
      · cases h
      · rename_i word hword
        obtain ⟨times, hcount, rfl⟩ := map_eq_ok_iff.1 h
        rw [eq_of_argument hword, hkeyword]
        exact .loop (states_of_count hcount)
    case h_5 hkeyword =>
      obtain ⟨asked, hasked, rfl⟩ := map_eq_ok_iff.1 h
      rw [texts_of_condition hasked, hkeyword]
      rcases asked with _ | _ | _
      · exact .branch
      · exact .tileAhead
      · exact .remaining
    case h_6 => cases h
    case h_7 hmove hcollect hturn hrepeat hif helse =>
      obtain ⟨⟨⟩, hrest, rfl⟩ := map_eq_ok_iff.1 h
      rw [Program.no_more_eq_ok_iff.1 hrest]
      exact .other (by simpa [keywords] using ⟨hmove, hcollect, hturn, hrepeat, hif, helse⟩)

/-- A line that says something by itself is no `else`. -/
theorem Means.not_else (h : Means line.texts head) : ¬ line.isElse = true := by
  intro helse
  generalize htexts : line.texts = texts at h
  have hfirst := (read_as_texts htexts).is_else_iff.1 helse
  cases h with
  | other h =>
      obtain rfl := Option.some.inj hfirst
      exact h (by decide)
  | move | collect | turnLeft | turnRight | loop | branch | tileAhead | remaining =>
      simp at hfirst

/-- A line that starts with `else` and goes no further. -/
theorem texts_else (helse : line.isElse = true) (hwords : line.words.drop 1 = []) :
    line.texts = ["else"] := by
  unfold isElse at helse
  split at helse
  · rename_i keyword rest heq
    rw [heq] at hwords
    obtain rfl : rest = [] := hwords
    simpa [texts, heq] using helse
  · cases helse

/-- A line that says else and nothing more is an else. -/
theorem is_else_of_texts (h : line.texts = ["else"]) : line.isElse = true :=
  (read_as_texts h).is_else_iff.2 rfl

end Line

/-! ### Derivations -/

/-- A derivation of a block: its instructions, each with the lines that say it, one after the
other. -/
inductive Derivation where
  | done
  /-- A line that is an instruction of its own. -/
  | simple (line : Line) (instruction : Instruction) (others : Derivation)
  | loop (line : Line) (times : UInt32) (body others : Derivation)
  /-- A branch without an `else`. -/
  | branch (line : Line) (condition : Option Condition) (whenTrue others : Derivation)
  /-- A branch with the line of its `else`. -/
  | branchElse (line : Line) (condition : Option Condition) (whenTrue : Derivation) (next : Line)
      (whenFalse others : Derivation)

namespace Derivation

/-- The lines that a derivation uses, in order. -/
def lines : Derivation → List Line
  | done => []
  | simple line _ others => line :: others.lines
  | loop line _ body others => line :: (body.lines ++ others.lines)
  | branch line _ whenTrue others => line :: (whenTrue.lines ++ others.lines)
  | branchElse line _ whenTrue next whenFalse others =>
      line :: (whenTrue.lines ++ next :: (whenFalse.lines ++ others.lines))

/-- The program that a derivation derives. -/
def program : Derivation → Program
  | done => []
  | simple _ instruction others => instruction :: others.program
  | loop _ times body others => .loop times body.program :: others.program
  | branch _ condition whenTrue others =>
      .branch condition whenTrue.program [] :: others.program
  | branchElse _ condition whenTrue _ whenFalse others =>
      .branch condition whenTrue.program whenFalse.program :: others.program

/-- A derivation follows the grammar of a block at a level of indentation: heads stand at the
level and say what is derived from them, bodies are blocks one level deeper, and an `else` stands
alone on its line, at the level of its head. -/
def Valid : Nat → Derivation → Prop
  | _, done => True
  | level, simple line instruction others =>
      line.indent = level ∧ Line.Means line.texts (.simple instruction) ∧ others.Valid level
  | level, loop line times body others =>
      line.indent = level ∧ Line.Means line.texts (.loop times) ∧ body.Valid (level + 1) ∧
        others.Valid level
  | level, branch line condition whenTrue others =>
      line.indent = level ∧ Line.Means line.texts (.branch condition) ∧
        whenTrue.Valid (level + 1) ∧ others.Valid level
  | level, branchElse line condition whenTrue next whenFalse others =>
      line.indent = level ∧ Line.Means line.texts (.branch condition) ∧
        whenTrue.Valid (level + 1) ∧ (next.indent = level ∧ next.texts = ["else"]) ∧
          whenFalse.Valid (level + 1) ∧ others.Valid level

open Instruction (Ends Follows)

variable {level : Nat} {derivation : Derivation} {tail : List Line}

/-- What the parser reads as a block has a derivation. -/
theorem exists_of_parses {lines rest : List Line} {program : Program}
    (h : Program.Parses level lines program rest) :
    ∃ derivation : Derivation, derivation.Valid level ∧ derivation.lines ++ rest = lines ∧
      derivation.program = program := by
  induction h with
  | done => exact ⟨done, trivial, rfl, rfl⟩
  | simple hindent hhead _ ih =>
      obtain ⟨others, hothers, rfl, rfl⟩ := ih
      exact ⟨simple _ _ others, ⟨hindent, Line.means_of_head hhead, hothers⟩, rfl, rfl⟩
  | loop hindent hhead _ _ ihbody ihrest =>
      obtain ⟨others, hothers, rfl, rfl⟩ := ihrest
      obtain ⟨body, hbody, rfl, rfl⟩ := ihbody
      exact ⟨loop _ _ body others, ⟨hindent, Line.means_of_head hhead, hbody, hothers⟩,
        by simp [Derivation.lines], rfl⟩
  | branch hindent hhead _ _ _ ihtrue ihrest =>
      obtain ⟨others, hothers, rfl, rfl⟩ := ihrest
      obtain ⟨whenTrue, htrue, rfl, rfl⟩ := ihtrue
      exact ⟨branch _ _ whenTrue others, ⟨hindent, Line.means_of_head hhead, htrue, hothers⟩,
        by simp [Derivation.lines], rfl⟩
  | branchElse hindent hhead _ hnext helse hwords _ _ ihtrue ihfalse ihrest =>
      obtain ⟨others, hothers, rfl, rfl⟩ := ihrest
      obtain ⟨whenFalse, hfalse, rfl, rfl⟩ := ihfalse
      obtain ⟨whenTrue, htrue, rfl, rfl⟩ := ihtrue
      exact ⟨branchElse _ _ whenTrue _ whenFalse others,
        ⟨hindent, Line.means_of_head hhead, htrue, ⟨hnext, Line.texts_else helse hwords⟩, hfalse,
          hothers⟩, by simp [Derivation.lines], rfl⟩

/-- A block is followed by what may follow each of its instructions. -/
theorem Valid.follows (h : derivation.Valid level) (htail : Ends level tail) :
    Follows level (derivation.lines ++ tail) := by
  have hfollows {line : Line} {head : Head} {rest : List Line} (hindent : line.indent = level)
      (hmeans : Line.Means line.texts head) : Follows level (line :: rest) := by
    intro first hfirst
    obtain rfl := Option.some.inj hfirst
    exact ⟨Nat.le_of_eq hindent, fun hsame => hmeans.not_else hsame.2⟩
  cases derivation with
  | done => exact htail.follows
  | simple | loop | branch | branchElse => exact hfollows h.1 h.2.1

/-- An `else` at the level of a head ends the body before it. -/
theorem ends_else {next : Line} (hnext : next.indent = level) :
    Ends (level + 1) (next :: tail) := by
  intro first hfirst
  obtain rfl := Option.some.inj hfirst
  exact Nat.lt_succ_of_le (Nat.le_of_eq hnext)

/-- What has a derivation is read by the parser, up to the end of the block. -/
theorem Valid.parses (h : derivation.Valid level) (htail : Ends level tail) :
    Program.Parses level (derivation.lines ++ tail) derivation.program tail := by
  induction derivation generalizing level tail with
  | done => exact .done htail
  | simple line instruction others ih =>
      obtain ⟨hindent, hmeans, hothers⟩ := h
      exact .simple hindent (Line.head_of_means hmeans) (ih hothers htail)
  | loop line times body others ihbody ihothers =>
      obtain ⟨hindent, hmeans, hbody, hothers⟩ := h
      have hmiddle := hothers.follows htail
      rw [lines, List.cons_append, List.append_assoc]
      exact .loop hindent (Line.head_of_means hmeans) (ihbody hbody hmiddle.ends)
        (ihothers hothers htail)
  | branch line condition whenTrue others ihtrue ihothers =>
      obtain ⟨hindent, hmeans, htrue, hothers⟩ := h
      have hmiddle := hothers.follows htail
      rw [lines, List.cons_append, List.append_assoc]
      exact .branch hindent (Line.head_of_means hmeans) (ihtrue htrue hmiddle.ends)
        (fun next hnext => (hmiddle next hnext).2) (ihothers hothers htail)
  | branchElse line condition whenTrue next whenFalse others ihtrue ihfalse ihothers =>
      obtain ⟨hindent, hmeans, htrue, ⟨hnext, helse⟩, hfalse, hothers⟩ := h
      have hfinal := hothers.follows htail
      obtain ⟨span, hwords⟩ := (Line.read_as_texts helse).words_one
      rw [lines, List.cons_append, List.append_assoc, List.cons_append, List.append_assoc]
      exact .branchElse hindent (Line.head_of_means hmeans) (ihtrue htrue (ends_else hnext)) hnext
        (Line.is_else_of_texts helse) (by rw [hwords]; rfl)
        (ihfalse hfalse hfinal.ends) (ihothers hothers htail)

/-- What the first line of a derivation says. -/
def head? : Derivation → Option Head
  | done => none
  | simple _ instruction _ => some (.simple instruction)
  | loop _ times _ _ => some (.loop times)
  | branch _ condition _ _ => some (.branch condition)
  | branchElse _ condition _ _ _ _ => some (.branch condition)

/-- A derivation is over, or its first line stands at the level of its block and says its head. -/
theorem Valid.first_cases (h : derivation.Valid level) :
    derivation = done ∨ ∃ line head others, derivation.lines = line :: others ∧
      line.indent = level ∧ derivation.head? = some head ∧ Line.Means line.texts head := by
  cases derivation with
  | done => exact .inl rfl
  | simple | loop | branch | branchElse => exact .inr ⟨_, _, _, rfl, h.1, rfl, h.2.1⟩

/-- Derivations of the same lines begin with the same head. -/
theorem Valid.same_head {a b : Derivation} {rest : List Line} (ha : a.Valid level)
    (hb : b.Valid level) (htail : Ends level tail) (hrest : Ends level rest)
    (h : a.lines ++ tail = b.lines ++ rest) : a.head? = b.head? := by
  -- a block that is over is followed by less indentation than a line of a block has
  have hends {line : Line} {others more : List Line} (hindent : line.indent = level)
      (hends : Ends level more) : more ≠ line :: others := by
    intro hmore
    exact absurd hindent (Nat.ne_of_lt (hends line (by simp [hmore])))
  obtain rfl | ⟨line, head, others, hlines, hindent, hhead, hmeans⟩ := ha.first_cases
  · obtain rfl | ⟨line, head, others, hlines, hindent, hhead, hmeans⟩ := hb.first_cases
    · rfl
    · rw [hlines] at h
      exact absurd h (hends hindent htail)
  · obtain rfl | ⟨line', head', others', hlines', hindent', hhead', hmeans'⟩ := hb.first_cases
    · rw [hlines] at h
      exact absurd h.symm (hends hindent hrest)
    · rw [hlines, hlines'] at h
      obtain ⟨rfl, -⟩ := List.cons.inj h
      rw [hhead, hhead', hmeans.unique hmeans']

/-- Two derivations of the same lines are the same, as far as their blocks go. The first line says
which rule comes next, and where a body ends is seen from the indentation of what follows. -/
theorem Valid.unique {a b : Derivation} {rest : List Line} (ha : a.Valid level) (hb : b.Valid level)
    (htail : Ends level tail) (hrest : Ends level rest) (h : a.lines ++ tail = b.lines ++ rest) :
    a = b ∧ tail = rest := by
  induction a generalizing level b tail rest with
  | done =>
      have hhead := ha.same_head hb htail hrest h
      cases b with
      | done => exact ⟨rfl, h⟩
      | _ => cases hhead
  | simple line instruction others ih =>
      have hhead := ha.same_head hb htail hrest h
      cases b with
      | simple line' instruction' others' =>
          cases hhead
          obtain ⟨-, -, hothers⟩ := ha
          obtain ⟨-, -, hothers'⟩ := hb
          simp only [lines, List.cons_append, List.cons.injEq] at h
          obtain ⟨rfl, hafter⟩ := h
          obtain ⟨rfl, rfl⟩ := ih hothers hothers' htail hrest hafter
          exact ⟨rfl, rfl⟩
      | _ => cases hhead
  | loop line times body others ihbody ihothers =>
      have hhead := ha.same_head hb htail hrest h
      cases b with
      | loop line' times' body' others' =>
          cases hhead
          obtain ⟨-, -, hbody, hothers⟩ := ha
          obtain ⟨-, -, hbody', hothers'⟩ := hb
          simp only [lines, List.cons_append, List.append_assoc, List.cons.injEq] at h
          obtain ⟨rfl, hinside⟩ := h
          obtain ⟨rfl, hafter⟩ := ihbody hbody hbody' (hothers.follows htail).ends
            (hothers'.follows hrest).ends hinside
          obtain ⟨rfl, rfl⟩ := ihothers hothers hothers' htail hrest hafter
          exact ⟨rfl, rfl⟩
      | _ => cases hhead
  | branch line condition whenTrue others ihtrue ihothers =>
      have hhead := ha.same_head hb htail hrest h
      obtain ⟨-, -, htrue, hothers⟩ := ha
      have hfollows := hothers.follows htail
      cases b with
      | branch line' condition' whenTrue' others' =>
          cases hhead
          obtain ⟨-, -, htrue', hothers'⟩ := hb
          simp only [lines, List.cons_append, List.append_assoc, List.cons.injEq] at h
          obtain ⟨rfl, hinside⟩ := h
          obtain ⟨rfl, hafter⟩ := ihtrue htrue htrue' hfollows.ends
            (hothers'.follows hrest).ends hinside
          obtain ⟨rfl, rfl⟩ := ihothers hothers hothers' htail hrest hafter
          exact ⟨rfl, rfl⟩
      | branchElse line' condition' whenTrue' next whenFalse others' =>
          -- after the same body, one has an `else` where the other goes on without
          obtain ⟨-, -, htrue', ⟨hnext, helse⟩, -, -⟩ := hb
          simp only [lines, List.cons_append, List.append_assoc, List.cons.injEq] at h
          obtain ⟨-, hafter⟩ := ihtrue htrue htrue' hfollows.ends (ends_else hnext) h.2
          exact absurd ⟨hnext, Line.is_else_of_texts helse⟩ (hfollows next (by simp [hafter])).2
      | _ => cases hhead
  | branchElse line condition whenTrue next whenFalse others ihtrue ihfalse ihothers =>
      have hhead := ha.same_head hb htail hrest h
      obtain ⟨-, -, htrue, ⟨hnext, helse⟩, hfalse, hothers⟩ := ha
      cases b with
      | branch line' condition' whenTrue' others' =>
          obtain ⟨-, -, htrue', hothers'⟩ := hb
          have hfollows := hothers'.follows hrest
          simp only [lines, List.cons_append, List.append_assoc, List.cons.injEq] at h
          obtain ⟨-, hafter⟩ := ihtrue htrue htrue' (ends_else hnext) hfollows.ends h.2
          exact absurd ⟨hnext, Line.is_else_of_texts helse⟩ (hfollows next (by simp [← hafter])).2
      | branchElse line' condition' whenTrue' next' whenFalse' others' =>
          cases hhead
          obtain ⟨-, -, htrue', ⟨hnext', -⟩, hfalse', hothers'⟩ := hb
          simp only [lines, List.cons_append, List.append_assoc, List.cons.injEq] at h
          obtain ⟨rfl, hinside⟩ := h
          obtain ⟨rfl, hmiddle⟩ := ihtrue htrue htrue' (ends_else hnext) (ends_else hnext') hinside
          obtain ⟨rfl, hsecond⟩ := List.cons.inj hmiddle
          obtain ⟨rfl, hafter⟩ := ihfalse hfalse hfalse' (hothers.follows htail).ends
            (hothers'.follows hrest).ends hsecond
          obtain ⟨rfl, rfl⟩ := ihothers hothers hothers' htail hrest hafter
          exact ⟨rfl, rfl⟩
      | _ => cases hhead

end Derivation

namespace Program

variable {source : String} {lines : List Line}

/-- A block goes on to the first line that is indented less. -/
theorem Parses.ends {level : Nat} {rest : List Line} {program : Program}
    (h : Parses level lines program rest) : Instruction.Ends level rest := by
  induction h with
  | done h => exact h
  | simple _ _ _ ih => exact ih
  | loop _ _ _ _ _ ih => exact ih
  | branch _ _ _ _ _ _ ih => exact ih
  | branchElse _ _ _ _ _ _ _ _ _ _ ih => exact ih

/-- Lines are read as a program exactly if they have a derivation of it. -/
theorem of_lines_eq_ok_iff_derived {program : Program} :
    ofLines lines = .ok program ↔ ∃ derivation : Derivation, derivation.Valid 0 ∧
      derivation.lines = lines ∧ derivation.program = program := by
  rw [of_lines_eq_ok_iff]
  constructor
  · intro h
    obtain ⟨derivation, hvalid, hlines, hprogram⟩ := Derivation.exists_of_parses h
    rw [List.append_nil] at hlines
    exact ⟨derivation, hvalid, hlines, hprogram⟩
  · intro h
    obtain ⟨derivation, hvalid, rfl, rfl⟩ := h
    have hends : Instruction.Ends 0 [] := by simp [Instruction.Ends]
    simpa using hvalid.parses hends

/-- A text whose lines can be told apart is read as a program exactly if the grammar derives the
program from all of its lines, each of them used once. It does so in at most one way. No line is
without words, and no line is left after the outermost block, so neither of these is ever the reason
why a text is refused. -/
theorem parse_eq_ok_iff_derived (hlines : Line.split source.toList = .ok lines) :
    (∀ program, parse source = .ok program ↔ ∃ derivation : Derivation, derivation.Valid 0 ∧
      derivation.lines = lines ∧ derivation.program = program) ∧
    (∀ a b : Derivation, a.Valid 0 → b.Valid 0 → a.lines = lines → b.lines = lines → a = b) ∧
    (∀ line ∈ lines, line.words ≠ []) ∧
    ∀ block, parseBlock 0 lines = .ok block → block.rest = [] := by
  refine ⟨fun program => ?_, fun a b ha hb halines hblines => ?_, Line.split_words hlines,
    fun block hblock => ?_⟩
  · rw [parse, hlines]
    exact of_lines_eq_ok_iff_derived
  · have hends : Instruction.Ends 0 [] := by simp [Instruction.Ends]
    exact (ha.unique hb hends hends (by rw [halines, hblines])).1
  · have hends := (parses_of_parse_block hblock).ends
    cases hrest : block.rest with
    | nil => rfl
    | cons line rest => exact absurd (hends line (by simp [hrest])) (Nat.not_lt_zero _)

/-- A branch whose first body is a move, and whose second one repeats an unknown kind twice. -/
def walkText : String := "if  # either way\n  move\nelse\n  repeat +02\n    jump\n"

/-- The walk has one derivation only, which derives the branch. -/
theorem walk_text_derived : ∃ lines, Line.split walkText.toList = .ok lines ∧ lines.length = 5 ∧
    (∃ derivation : Derivation, derivation.Valid 0 ∧ derivation.lines = lines ∧
      derivation.program = [.branch none [.move] [.loop 2 [.other "jump"]]]) ∧
    ∀ a b : Derivation, a.Valid 0 → b.Valid 0 → a.lines = lines → b.lines = lines → a = b := by
  have hlines : Line.split walkText.toList = .ok _ := rfl
  have hparse : parse walkText = .ok [.branch none [.move] [.loop 2 [.other "jump"]]] := by
    decide +kernel
  obtain ⟨hderived, hunique, -, -⟩ := parse_eq_ok_iff_derived hlines
  exact ⟨_, hlines, rfl, (hderived _).1 hparse, hunique⟩

end Program

end TileCourse
