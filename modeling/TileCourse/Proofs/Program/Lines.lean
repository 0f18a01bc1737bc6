import Mathlib.Data.List.Forall2
import TileCourse.Program.Printer
import TileCourse.Proofs.Program.Layout

/-!
# Lines and their words

`split_sound` says what holds of every line of a program text, however it is written. In the other
direction, a `Phrase` is a line as the printer writes it, and `split_phrases` says that lines which
are written as phrases are read as the same words at the same depths.
-/

namespace TileCourse

/-- A text that can be a word of a line. -/
structure IsWord (s : String) : Prop where
  nonempty : s.toList ≠ []
  solid : ∀ c ∈ s.toList, Text.isBlank c = false
  noComment : '#' ∉ s.toList

namespace Line

variable {cs begun content : List Char} {offset : Nat} {unit : Option Nat}

/-! ### What lines are made of -/

/-- Words are cut at blanks, so they hold none. -/
theorem is_word_of_mem_words_from (hcs : '#' ∉ cs) (hbegun : '#' ∉ begun)
    (hsolid : ∀ c ∈ begun, Text.isBlank c = false) :
    ∀ word ∈ wordsFrom cs offset begun, IsWord word.text := by
  have hfinish {reversed : List Char} (stop : Nat) (hne : reversed ≠ []) (hhash : '#' ∉ reversed)
      (hblank : ∀ c ∈ reversed, Text.isBlank c = false) :
      IsWord (finishWord reversed stop).text := by
    refine ⟨?_, ?_, ?_⟩ <;> simpa [finishWord]
  induction cs generalizing offset begun with
  | nil =>
      intro word hword
      rw [wordsFrom] at hword
      split at hword
      · simp at hword
      · rename_i hne
        obtain rfl := List.mem_singleton.1 hword
        exact hfinish offset (by simpa using hne) hbegun hsolid
  | cons c cs ih =>
      intro word hword
      rw [List.mem_cons, not_or] at hcs
      obtain ⟨hc, hcs⟩ := hcs
      rw [wordsFrom] at hword
      split at hword
      · have hrest : ∀ word ∈ wordsFrom cs (offset + c.utf8Size) [], IsWord word.text :=
          ih hcs (by simp) (by simp)
        split at hword
        · exact hrest word hword
        · rename_i hne
          rcases List.mem_cons.1 hword with rfl | hword
          · exact hfinish offset (by simpa using hne) hbegun hsolid
          · exact hrest word hword
      · rename_i hblank
        refine ih hcs (by simp [hc, hbegun]) ?_ word hword
        rintro d hd
        rcases List.mem_cons.1 hd with rfl | hd
        · simpa using hblank
        · exact hsolid d hd

/-- A line that counts is not indented too deeply, and its words are words. -/
def Sound (line : Line) : Prop :=
  line.indent ≤ maxNesting ∧ ∀ word ∈ line.words, IsWord word.text

/-- A line that is made of what counts is sound. -/
theorem of_content_sound {raw : List Char} {line : Line} {next : Option Nat}
    (h : ofContent (Line.content raw) offset unit = .ok (some line, next)) : line.Sound := by
  obtain ⟨-, indent, -, hdeep, rfl⟩ := of_content_eq_some_iff.1 h
  exact ⟨hdeep, is_word_of_mem_words_from (not_mem_body raw) (by simp) (by simp)⟩

/-- A text with a character that is no blank has a word. -/
theorem words_from_ne_nil (h : begun ≠ [] ∨ ∃ c ∈ cs, Text.isBlank c = false) :
    wordsFrom cs offset begun ≠ [] := by
  induction cs generalizing offset begun with
  | nil =>
      have hbegun : begun ≠ [] := by simpa using h
      simp [wordsFrom, hbegun]
  | cons c cs ih =>
      rw [wordsFrom]
      split
      · rename_i hblank
        dsimp only
        split
        · -- the blank ends no word, so the character that is no blank comes later
          rename_i hempty
          have hmore : ∃ d ∈ cs, Text.isBlank d = false := by
            rcases h with hbegun | ⟨d, hd, hsolid⟩
            · exact absurd (List.isEmpty_iff.1 hempty) hbegun
            · rcases List.mem_cons.1 hd with rfl | hd
              · simp [hblank] at hsolid
              · exact ⟨d, hd, hsolid⟩
          exact ih (.inr hmore)
        · simp
      · exact ih (.inl (by simp))

/-- A line that counts has a word. -/
theorem of_content_words {raw : List Char} {line : Line} {next : Option Nat}
    (h : ofContent (Line.content raw) offset unit = .ok (some line, next)) : line.words ≠ [] := by
  obtain ⟨hbody, indent, -, -, rfl⟩ := of_content_eq_some_iff.1 h
  exact words_from_ne_nil (.inr ⟨_, List.getLast_mem hbody, last_body hbody⟩)

/-- Every line that counts is the content of a raw line, read where that line stands. -/
theorem exists_content_of_mem {raws : List (List Char)} {lines : List Line}
    (h : ofRaw raws offset unit = .ok lines) :
    ∀ line ∈ lines, ∃ earlier raw later unit next, raws = earlier ++ raw :: later ∧
      ofContent (Line.content raw) (offset + Text.byteSize earlier.flatten) unit =
        .ok (some line, next) := by
  induction raws generalizing offset unit lines with
  | nil =>
      cases h
      simp
  | cons raw raws ih =>
      rw [ofRaw] at h
      split at h
      · cases h
      · rename_i line next hcontent
        split at h
        · cases h
        · rename_i others hothers
          cases h
          intro other hother
          rcases List.mem_append.1 hother with hline | hrest
          · rw [Option.mem_toList] at hline
            subst hline
            exact ⟨[], raw, raws, unit, next, rfl, hcontent⟩
          · obtain ⟨earlier, found, later, unit, next, rfl, hfound⟩ := ih hothers other hrest
            refine ⟨raw :: earlier, found, later, unit, next, rfl, ?_⟩
            rwa [List.flatten_cons, Text.byte_size_append, ← Nat.add_assoc]

/-- The error with which the lines are refused is that of a raw line, read where that line
stands. -/
theorem exists_content_of_error {raws : List (List Char)} {error : ParseError}
    (h : ofRaw raws offset unit = .error error) :
    ∃ earlier raw later unit, raws = earlier ++ raw :: later ∧
      ofContent (Line.content raw) (offset + Text.byteSize earlier.flatten) unit =
        .error error := by
  induction raws generalizing offset unit with
  | nil => cases h
  | cons raw raws ih =>
      rw [ofRaw] at h
      split at h
      · rename_i error' hcontent
        cases h
        exact ⟨[], raw, raws, unit, rfl, hcontent⟩
      · rename_i line next hcontent
        split at h
        · rename_i error' hrest
          cases h
          obtain ⟨earlier, found, later, unit, rfl, hfound⟩ := ih hrest
          refine ⟨raw :: earlier, found, later, unit, rfl, ?_⟩
          rwa [List.flatten_cons, Text.byte_size_append, ← Nat.add_assoc]
        · cases h

/-- Every line of a program text is sound. -/
theorem split_sound {source : List Char} {lines : List Line} (h : split source = .ok lines) :
    ∀ line ∈ lines, line.Sound := by
  intro line hline
  obtain ⟨_, raw, _, _, _, -, hcontent⟩ := exists_content_of_mem h line hline
  exact of_content_sound hcontent

/-- Every line of a program text has a word. -/
theorem split_words {source : List Char} {lines : List Line} (h : split source = .ok lines) :
    ∀ line ∈ lines, line.words ≠ [] := by
  intro line hline
  obtain ⟨_, raw, _, _, _, -, hcontent⟩ := exists_content_of_mem h line hline
  exact of_content_words hcontent

/-! ### Lines as they are written -/

/-- Words with a space between any two. -/
def written : List String → List Char
  | [] => []
  | [word] => word.toList
  | word :: next :: rest => word.toList ++ ' ' :: written (next :: rest)

/-- The characters of a word are added to the word that has begun. -/
theorem words_from_append (offset : Nat) (begun : List Char)
    (hsolid : ∀ c ∈ cs, Text.isBlank c = false) (rest : List Char) :
    wordsFrom (cs ++ rest) offset begun =
      wordsFrom rest (offset + Text.byteSize cs) (cs.reverse ++ begun) := by
  induction cs generalizing offset begun with
  | nil => simp [Text.byte_size_nil]
  | cons c cs ih =>
      have hc : Text.isBlank c = false := hsolid c (by simp)
      rw [List.cons_append, wordsFrom, if_neg (by simp [hc]),
        ih _ _ fun d hd => hsolid d (List.mem_cons_of_mem _ hd)]
      simp [Text.byte_size_cons, Nat.add_assoc]

/-- Written words are read as the same words. -/
theorem words_from_written {words : List String} (hwords : ∀ word ∈ words, IsWord word) :
    (wordsFrom (written words) offset []).map (·.text) = words := by
  induction words generalizing offset with
  | nil => rfl
  | cons word rest ih =>
      obtain ⟨hword, hrest⟩ := List.forall_mem_cons.1 hwords
      have hne : ¬ (word.toList.reverse ++ []).isEmpty = true := by simpa using hword.nonempty
      have htext (stop : Nat) : (finishWord (word.toList.reverse ++ []) stop).text = word := by
        simp [finishWord]
      cases rest with
      | nil =>
          have h := words_from_append offset [] hword.solid []
          rw [List.append_nil] at h
          rw [written, h, wordsFrom, if_neg hne, List.map_singleton, htext]
      | cons next rest =>
          rw [written, words_from_append _ _ hword.solid, wordsFrom, if_pos (by decide)]
          simp only [if_neg hne, List.map_cons, htext, ih hrest]

/-- The characters of written words: those of the words, and spaces. -/
theorem mem_written {words : List String} {c : Char} (h : c ∈ written words) :
    c = ' ' ∨ ∃ word ∈ words, c ∈ word.toList := by
  induction words with
  | nil => simp [written] at h
  | cons word rest ih =>
      cases rest with
      | nil => exact .inr ⟨word, by simp, h⟩
      | cons next rest =>
          rw [written, List.mem_append, List.mem_cons] at h
          rcases h with h | rfl | h
          · exact .inr ⟨word, by simp, h⟩
          · exact .inl rfl
          · obtain h | ⟨other, hother, h⟩ := ih h
            · exact .inl h
            · exact .inr ⟨other, List.mem_cons_of_mem _ hother, h⟩

/-- Written words start with a character of a word. -/
theorem head_written {words : List String} (hne : words ≠ [])
    (hwords : ∀ word ∈ words, IsWord word) :
    ∃ c rest, written words = c :: rest ∧ Text.isBlank c = false := by
  obtain ⟨word, rest, rfl⟩ := List.exists_cons_of_ne_nil hne
  have hword := hwords word (by simp)
  obtain ⟨c, cs, hcs⟩ := List.exists_cons_of_ne_nil hword.nonempty
  have hc := hword.solid c (by simp [hcs])
  cases rest with
  | nil => exact ⟨c, cs, hcs, hc⟩
  | cons next rest => exact ⟨c, cs ++ ' ' :: written (next :: rest), by rw [written, hcs]; rfl, hc⟩

/-- Written words end with a character of a word. -/
theorem last_written {words : List String} (hne : words ≠ [])
    (hwords : ∀ word ∈ words, IsWord word) :
    ∃ front c, written words = front ++ [c] ∧ Text.isBlank c = false := by
  induction words with
  | nil => exact absurd rfl hne
  | cons word rest ih =>
      obtain ⟨hword, hrest⟩ := List.forall_mem_cons.1 hwords
      cases rest with
      | nil =>
          refine ⟨_, _, (List.dropLast_concat_getLast hword.nonempty).symm, ?_⟩
          exact hword.solid _ (List.getLast_mem _)
      | cons next rest =>
          obtain ⟨front, c, hfront, hc⟩ := ih (by simp) hrest
          exact ⟨word.toList ++ ' ' :: front, c, by rw [written, hfront]; simp, hc⟩

end Line

/-- A line as the printer writes it. -/
structure Phrase where
  /-- The depth of its indentation. -/
  depth : Nat
  words : List String
  deriving DecidableEq, Repr

namespace Phrase

/-- The characters of a phrase. -/
def text (phrase : Phrase) : List Char :=
  Program.renderLine phrase.depth (Line.written phrase.words)

/-- A phrase whose words can be read again. -/
structure Legible (phrase : Phrase) : Prop where
  nonempty : phrase.words ≠ []
  words : ∀ word ∈ phrase.words, IsWord word
  depth : phrase.depth ≤ maxNesting

/-- A line says what a phrase says. -/
structure ReadAs (phrase : Phrase) (line : Line) : Prop where
  depth : line.indent = phrase.depth
  words : line.words.map (·.text) = phrase.words

end Phrase

namespace Line

variable {phrase : Phrase} {phrases : List Phrase} {offset : Nat} {unit : Option Nat}

/-- A text that ends with its only line feed is a line. -/
theorem lines_append {cs : List Char} (h : '\n' ∉ cs) (rest : List Char) :
    Text.lines (cs ++ '\n' :: rest) = (cs ++ ['\n']) :: Text.lines rest := by
  induction cs with
  | nil => rfl
  | cons c cs ih =>
      rw [List.mem_cons, not_or] at h
      rw [List.cons_append, Text.lines, ih h.2]
      · rfl
      · rintro rfl
        exact h.1 rfl

/-- A phrase is written as four spaces for each level, its words and a line feed. -/
theorem indented_eq (phrase : Phrase) :
    phrase.text = (List.replicate (4 * phrase.depth) ' ' ++ written phrase.words) ++ ['\n'] := rfl

/-- A phrase has no hash sign and no line feed before its end. -/
theorem not_mem_indented (h : phrase.Legible) {c : Char} (hc : c = '#' ∨ c = '\n') :
    c ∉ List.replicate (4 * phrase.depth) ' ' ++ written phrase.words := by
  intro hmem
  rcases List.mem_append.1 hmem with hmem | hmem
  · rw [List.eq_of_mem_replicate hmem] at hc
    revert hc
    decide
  · obtain rfl | ⟨word, hword, hmem⟩ := mem_written hmem
    · revert hc
      decide
    · rcases hc with rfl | rfl
      · exact (h.words word hword).noComment hmem
      · exact absurd ((h.words word hword).solid _ hmem) (by decide)

/-- Phrases are written on lines of their own. -/
theorem lines_phrases (h : ∀ phrase ∈ phrases, phrase.Legible) :
    Text.lines (phrases.flatMap Phrase.text) = phrases.map Phrase.text := by
  induction phrases with
  | nil => rfl
  | cons phrase rest ih =>
      obtain ⟨hphrase, hrest⟩ := List.forall_mem_cons.1 h
      rw [List.flatMap_cons, List.map_cons, indented_eq, List.append_assoc, List.singleton_append,
        lines_append (not_mem_indented hphrase (.inr rfl)), ih hrest]

/-- A phrase is laid out with four spaces for a level. -/
theorem layout_phrase (h : phrase.Legible) :
    Layout phrase.text (List.replicate (4 * phrase.depth) ' ') (written phrase.words) ['\n'] := by
  obtain ⟨first, rest, hfirst, hsolid⟩ := head_written h.nonempty h.words
  obtain ⟨front, last, hlast, hend⟩ := last_written h.nonempty h.words
  refine ⟨rfl, fun c hc => .inl (List.eq_of_mem_replicate hc), fun c hc => ?_, fun c hc => ?_,
    fun hhash => ?_, by decide⟩
  · rw [hfirst, List.head?_cons, Option.mem_some_iff] at hc
    subst hc
    constructor <;>
      · rintro rfl
        revert hsolid
        decide
  · rw [hlast, List.getLast?_concat, Option.mem_some_iff] at hc
    rwa [← hc]
  · exact not_mem_indented h (.inl rfl) (List.mem_append_right _ hhash)

/-- A phrase is read as a line that says the same. The first phrase that is indented makes four
spaces the unit. -/
theorem of_content_phrase (offset : Nat) (h : phrase.Legible)
    (hunit : unit = none ∨ unit = some 4) :
    ∃ line next, ofContent (content phrase.text) offset unit = .ok (some line, next) ∧
      (next = none ∨ next = some 4) ∧ phrase.ReadAs line := by
  obtain ⟨first, rest, hfirst, -⟩ := head_written h.nonempty h.words
  have hne : written phrase.words ≠ [] := by simp [hfirst]
  obtain ⟨hmargin, hbody⟩ := (layout_phrase h).parts_eq hne
  have hsize : 0 < phrase.depth → unit.getD (unitOf (4 * phrase.depth)) = 4 := by
    intro hpos
    obtain rfl | rfl := hunit
    · exact if_pos (by omega)
    · rfl
  have hlevel := level_of_spaces (by decide : 0 < 4) hsize
  refine ⟨_, _, of_content_eq_some_iff.2 ⟨hbody ▸ hne, _, hmargin ▸ hlevel, h.depth, rfl⟩, ?_,
    rfl, ?_⟩
  · split_ifs
    · exact hunit
    · exact .inr rfl
  · rw [hbody]
    exact words_from_written h.words

/-- Lines that are written as phrases are read as lines that say the same. -/
theorem of_raw_phrases (offset : Nat) (h : ∀ phrase ∈ phrases, phrase.Legible)
    (hunit : unit = none ∨ unit = some 4) :
    ∃ lines, ofRaw (phrases.map Phrase.text) offset unit = .ok lines ∧
      List.Forall₂ Phrase.ReadAs phrases lines := by
  induction phrases generalizing offset unit with
  | nil => exact ⟨[], rfl, .nil⟩
  | cons phrase rest ih =>
      obtain ⟨hphrase, hrest⟩ := List.forall_mem_cons.1 h
      obtain ⟨line, next, hline, hnext, hread⟩ := of_content_phrase offset hphrase hunit
      obtain ⟨others, hothers, hreads⟩ :=
        ih (offset + Text.byteSize phrase.text) hrest hnext
      refine ⟨line :: others, ?_, .cons hread hreads⟩
      rw [List.map_cons, ofRaw, hline]
      simp only [hothers]
      rfl

/-- A text that is written as phrases is read as lines that say the same. -/
theorem split_phrases (h : ∀ phrase ∈ phrases, phrase.Legible) :
    ∃ lines, split (phrases.flatMap Phrase.text) = .ok lines ∧
      List.Forall₂ Phrase.ReadAs phrases lines := by
  rw [split, lines_phrases h]
  exact of_raw_phrases 0 h (.inl rfl)

end Line

end TileCourse
