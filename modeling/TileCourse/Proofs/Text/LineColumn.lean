import Mathlib.Data.List.DropRight
import TileCourse.Proofs.Text.Slice

/-!
# Lines and columns

A report on a text may name a place by its line and its column, and `Span.atLineColumn` turns that
into a span. What a line and a column stand for is told here without offsets: `Text.onwards?` is
the text from there on, and the character that the line and column count up to begins it
(`onwards_of_place`). The span starts where that text starts, and it covers one byte: it is the
character there if this takes one byte, and no slice of the text otherwise
(`Span.at_line_column_covers_byte`).
-/

namespace TileCourse

namespace Text

/-- The line of a character, counted from one, by what stands before the character. -/
def lineOf (before : List Char) : Nat := 1 + before.count '\n'

/-- The column of a character, counted from one, by what stands before the character. -/
def columnOf (before : List Char) : Nat := 1 + (before.rtakeWhile (· != '\n')).length

/-- A text from a line and a column on, if the line exists. After the end of a line the next one
follows. -/
def onwards? (source : List Char) (line column : Nat) : Option (List Char) :=
  match line with
  | 0 => none
  | above + 1 =>
    match (lines source).drop above with
    | [] => none
    | text :: later => some (text.drop (column - 1) ++ later.flatten)

/-- The character that a line and a column stand for: the next one from there on, if there is one,
and the last one of the text if the line does not exist. -/
def marked? (source : List Char) (line column : Nat) : Option Char :=
  match onwards? source line column with
  | some rest => rest.head?
  | none => source.getLast?

variable {source before after rest text : List Char} {line column : Nat} {c : Char}

/-! ### Lines and columns of characters -/

/-- Only the empty text has no lines. -/
theorem lines_eq_nil_iff : lines source = [] ↔ source = [] := by
  constructor
  · intro h
    rw [← flatten_lines source, h, List.flatten_nil]
  · intro h
    rw [h, lines]

/-- A line feed is a line of its own before the lines that follow. -/
theorem lines_line_feed (cs : List Char) : lines ('\n' :: cs) = ['\n'] :: lines cs := rfl

/-- Any other character belongs to the first line of the text after it. -/
theorem lines_cons (hc : c ≠ '\n') (hcs : source ≠ []) : ∃ text later,
    lines source = text :: later ∧ lines (c :: source) = (c :: text) :: later := by
  cases hlines : lines source with
  | nil => exact absurd (lines_eq_nil_iff.1 hlines) hcs
  | cons text later => exact ⟨text, later, rfl, by simp [lines, hlines]⟩

/-- A line stands in its text after the lines above it. -/
theorem eq_above_append {above : Nat} {later : List (List Char)}
    (h : (lines source).drop above = text :: later) :
    source = ((lines source).take above).flatten ++ (text ++ later.flatten) := by
  have hflat := flatten_lines source
  rwa [← List.take_append_drop above (lines source), List.flatten_append, h, List.flatten_cons,
    eq_comm] at hflat

/-- The text from a place on is the rest of its line from the column on, and the later lines. -/
theorem onwards_eq_some_iff : onwards? source line column = some rest ↔
    ∃ above text later, line = above + 1 ∧ (lines source).drop above = text :: later ∧
      rest = text.drop (column - 1) ++ later.flatten := by
  cases line with
  | zero => simp [onwards?]
  | succ above =>
      cases hdrop : (lines source).drop above with
      | nil => simp [onwards?, hdrop]
      | cons text later => simp [onwards?, hdrop, eq_comm]

/-- The text from its first character on is the whole text. -/
theorem onwards_first (h : source ≠ []) : onwards? source 1 1 = some source := by
  cases hlines : lines source with
  | nil => exact absurd (lines_eq_nil_iff.1 hlines) h
  | cons text later =>
      have hdrop : (lines source).drop 0 = text :: later := hlines
      exact onwards_eq_some_iff.2 ⟨0, text, later, rfl, hdrop, eq_above_append hdrop⟩

/-- After a line feed each line is one further down. -/
theorem onwards_line_feed (cs : List Char) (above column : Nat) :
    onwards? ('\n' :: cs) (above + 1 + 1) column = onwards? cs (above + 1) column := by
  simp only [onwards?, lines_line_feed, List.drop_succ_cons]

/-- A character before the first line feed moves what follows on its line by one column. -/
theorem onwards_same_line (hc : c ≠ '\n') (h : source ≠ []) (column : Nat) :
    onwards? (c :: source) 1 (column + 1 + 1) = onwards? source 1 (column + 1) := by
  obtain ⟨text, later, hlines, hcons⟩ := lines_cons hc h
  simp [onwards?, hlines, hcons]

/-- A character before the first line feed moves nothing on the lines after its own. -/
theorem onwards_later_line (hc : c ≠ '\n') (h : source ≠ []) (above column : Nat) :
    onwards? (c :: source) (above + 1 + 1) column = onwards? source (above + 1 + 1) column := by
  obtain ⟨text, later, hlines, hcons⟩ := lines_cons hc h
  simp only [onwards?, hlines, hcons, List.drop_succ_cons]

/-- A character before another one moves that by a column, unless a line feed stands between. -/
theorem column_of_cons (c : Char) (before : List Char) : columnOf (c :: before) =
    if '\n' ∈ c :: before then columnOf before else columnOf before + 1 := by
  by_cases hbefore : '\n' ∈ before
  case pos =>
    have hshort : (before.reverse.takeWhile (· != '\n')).length ≠ before.reverse.length := by
      intro hlength
      have hall := List.takeWhile_eq_self_iff.1
        ((List.takeWhile_prefix _).eq_of_length hlength) '\n' (by simpa using hbefore)
      simp at hall
    rw [if_pos (List.mem_cons_of_mem _ hbefore), columnOf, List.rtakeWhile, List.reverse_cons,
      List.takeWhile_append, if_neg hshort]
    rfl
  case neg =>
    have hall : ∀ d ∈ before.reverse, (d != '\n') = true := by
      intro d hd
      rw [bne_iff_ne]
      rintro rfl
      exact hbefore (List.mem_reverse.1 hd)
    rw [columnOf, columnOf, List.rtakeWhile, List.rtakeWhile, List.reverse_cons,
      List.takeWhile_append_of_pos hall, List.takeWhile_eq_self_iff.2 hall]
    by_cases hc : c = '\n'
    · subst hc
      simp
    · simp [hc, hbefore, Ne.symm hc, Nat.add_assoc]

/-- A line feed puts what follows on the next line. -/
theorem line_of_line_feed (before : List Char) :
    lineOf ('\n' :: before) = before.count '\n' + 1 + 1 := by
  rw [lineOf, List.count_cons_self, Nat.add_comm]

/-- Any other character leaves what follows on the same line. -/
theorem line_of_cons (hc : c ≠ '\n') (before : List Char) :
    lineOf (c :: before) = lineOf before := by
  rw [lineOf, List.count_cons_of_ne hc, lineOf]

/-- A character stands at its line and column. -/
theorem onwards_of_place (before : List Char) (c : Char) (after : List Char) :
    onwards? (before ++ c :: after) (lineOf before) (columnOf before) = some (c :: after) := by
  induction before with
  | nil => exact onwards_first (List.cons_ne_nil _ _)
  | cons d before ih =>
      have hne : before ++ c :: after ≠ [] := List.append_ne_nil_of_right_ne_nil _ (by simp)
      rw [List.cons_append, column_of_cons]
      -- a character in front moves the place by a line, by nothing if a line feed follows, or by a
      -- column
      by_cases hd : d = '\n'
      case pos =>
        rw [hd, if_pos List.mem_cons_self, line_of_line_feed, onwards_line_feed, Nat.add_comm _ 1]
        exact ih
      case neg =>
        rw [line_of_cons hd]
        by_cases hbefore : '\n' ∈ before
        case pos =>
          obtain ⟨above, habove⟩ : ∃ above, before.count '\n' = above + 1 :=
            Nat.exists_eq_succ_of_ne_zero (Nat.ne_of_gt (List.count_pos_iff.2 hbefore))
          have hline : lineOf before = above + 1 + 1 := by rw [lineOf, habove, Nat.add_comm]
          rw [if_pos (List.mem_cons_of_mem _ hbefore), hline, onwards_later_line hd hne, ← hline]
          exact ih
        case neg =>
          have hline : lineOf before = 1 := by rw [lineOf, List.count_eq_zero.2 hbefore]
          have hcolumn : columnOf before = (before.rtakeWhile (· != '\n')).length + 1 :=
            Nat.add_comm _ _
          rw [if_neg (by simp [Ne.symm hd, hbefore]), hline, hcolumn, onwards_same_line hd hne,
            ← hcolumn, ← hline]
          exact ih

end Text

namespace Span

open Text

variable {source before after rest text : List Char} {line column : Nat}

/-! ### Where the span starts -/

/-- The offset of a character is the size of the characters before it. -/
theorem char_offset_eq (text : List Char) (index : Nat) :
    charOffset text index = byteSize (text.take index) := by
  induction text generalizing index with
  | nil => cases index <;> rfl
  | cons c text ih =>
      cases index with
      | zero => rfl
      | succ index => rw [charOffset, ih, List.take_succ_cons, byte_size_cons]

/-- What stands before a line and column is what the lines above it and the line up to the column
make up. -/
theorem offset_in_eq (texts : List (List Char)) (offset above column : Nat) :
    offsetIn? texts offset (above + 1) column = (texts.drop above).head?.map fun text =>
      offset + byteSize ((texts.take above).flatten ++ text.take (column - 1)) := by
  induction texts generalizing offset above with
  | nil => simp [offsetIn?]
  | cons text texts ih =>
      cases above with
      | zero => simp [offsetIn?, char_offset_eq]
      | succ above =>
          show offsetIn? texts (offset + byteSize text) (above + 1) column = _
          rw [ih]
          simp [byte_size_append, Nat.add_assoc]

/-- The span of an existing line starts where the text from there on starts. -/
theorem at_line_column_of_onwards (h : onwards? source line column = some rest) :
    ∃ before, source = before ++ rest ∧ atLineColumn source line column =
      ⟨byteSize before, min (byteSize before + 1) (byteSize source)⟩ := by
  obtain ⟨above, text, later, rfl, hdrop, rfl⟩ := onwards_eq_some_iff.1 h
  obtain ⟨before, hbefore⟩ : ∃ before,
      before = ((lines source).take above).flatten ++ text.take (column - 1) := ⟨_, rfl⟩
  have hsource : source = before ++ (text.drop (column - 1) ++ later.flatten) := by
    calc source
        = ((lines source).take above).flatten ++ (text ++ later.flatten) := eq_above_append hdrop
      _ = before ++ (text.drop (column - 1) ++ later.flatten) := by
          rw [hbefore, List.append_assoc, ← List.append_assoc (text.take _),
            List.take_append_drop]
  have hoffset : offsetIn? (lines source) 0 (above + 1) column = some (byteSize before) := by
    simp [offset_in_eq, hdrop, hbefore]
  have hle : byteSize before ≤ byteSize source := by
    rw [hsource, byte_size_append]
    exact Nat.le_add_right _ _
  refine ⟨before, hsource, ?_⟩
  simp [atLineColumn, hoffset, Nat.min_eq_left hle]

/-- The span of a line that does not exist is the last byte. -/
theorem at_line_column_of_none (h : onwards? source line column = none) :
    atLineColumn source line column = ⟨byteSize source - 1, byteSize source⟩ := by
  cases line with
  | zero => rfl
  | succ above =>
      cases hdrop : (lines source).drop above with
      | nil => simp [atLineColumn, offset_in_eq, hdrop]
      | cons text later =>
          rw [onwards_eq_some_iff.2 ⟨above, text, later, rfl, hdrop, rfl⟩] at h
          cases h

/-! ### What the span covers -/

/-- A text of one byte is one character of one byte. -/
theorem eq_singleton_of_byte_size (h : byteSize text = 1) :
    ∃ c : Char, text = [c] ∧ c.utf8Size = 1 := by
  cases text with
  | nil => cases h
  | cons c text =>
      rw [byte_size_cons] at h
      have hc := c.utf8Size_pos
      have htext : text = [] := by
        by_contra hne
        have := byte_size_pos_iff.2 hne
        omega
      exact ⟨c, by rw [htext], by omega⟩

/-- The byte after a part of a text lies in the text if a character follows. -/
theorem min_byte_size_eq (before : List Char) (c : Char) (after : List Char) :
    min (byteSize before + 1) (byteSize (before ++ c :: after)) = byteSize before + 1 := by
  have hc := c.utf8Size_pos
  rw [byte_size_append, byte_size_cons]
  omega

/-- The byte after a part of a text is a slice of it if the character there takes one byte. At the
end of the text no byte follows, and the empty text is cut out. -/
theorem slice_byte_iff (before rest : List Char) :
    (∃ text, slice? (before ++ rest) ⟨byteSize before,
      min (byteSize before + 1) (byteSize (before ++ rest))⟩ = some text) ↔
      ∀ c ∈ rest.head?, c.utf8Size = 1 := by
  cases rest with
  | nil =>
      refine iff_of_true ⟨[], slice_eq_some_iff.2 ⟨before, [], by simp, rfl, ?_⟩⟩ (by simp)
      simp [byte_size_nil]
  | cons c rest =>
      rw [min_byte_size_eq]
      constructor
      · intro h d hd
        obtain ⟨text, htext⟩ := h
        obtain ⟨before', after, hsource, hbefore, hsize⟩ := slice_eq_some_iff.1 htext
        dsimp only at hbefore hsize
        obtain ⟨e, rfl, he⟩ := eq_singleton_of_byte_size (Nat.add_left_cancel hsize).symm
        have hcut := cut_append before (c :: rest)
        rw [hsource, ← hbefore, List.append_assoc, cut_append] at hcut
        cases hcut
        obtain rfl : c = d := Option.some.inj hd
        exact he
      · intro h
        have hone : c.utf8Size = 1 := h c rfl
        exact ⟨[c], slice_eq_some_iff.2 ⟨before, rest, by simp, rfl, by
          rw [byte_size_cons, byte_size_nil, hone]⟩⟩

/-- The last byte of a text is a slice of it if the last character takes one byte. -/
theorem slice_last_byte_iff (source : List Char) :
    (∃ text, slice? source ⟨byteSize source - 1, byteSize source⟩ = some text) ↔
      ∀ c ∈ source.getLast?, c.utf8Size = 1 := by
  cases source using List.reverseRecOn with
  | nil => exact iff_of_true ⟨[], rfl⟩ (by simp)
  | append_singleton front c =>
      have hc := c.utf8Size_pos
      have hsize : byteSize (front ++ [c]) = byteSize front + c.utf8Size := byte_size_append _ _
      constructor
      · intro h d hd
        obtain ⟨text, hslice⟩ := h
        obtain ⟨before, after, hsource, hbefore, hstop⟩ := slice_eq_some_iff.1 hslice
        dsimp only at hbefore hstop
        have htext : byteSize text = 1 := by omega
        obtain ⟨e, rfl, he⟩ := eq_singleton_of_byte_size htext
        -- the slice ends where the text ends, so its one character is the last of the text
        have hafter : after = [] := by
          by_contra hne
          have hpos := byte_size_pos_iff.2 hne
          have hsum : byteSize (front ++ [c]) = byteSize before + byteSize [e] + byteSize after := by
            rw [hsource, byte_size_append, byte_size_append]
          omega
        obtain rfl : e = d := by simpa [hsource, hafter] using hd
        exact he
      · intro h
        have hone : c.utf8Size = 1 := h c (by simp)
        have hslice := (slice_byte_iff front [c]).2 (by simpa using hone)
        rw [hsize, hone] at hslice ⊢
        simpa using hslice

/-- The span of a character's line and column is the first byte of the character. -/
theorem at_line_column_of_place (before : List Char) (c : Char) (after : List Char) :
    atLineColumn (before ++ c :: after) (lineOf before) (columnOf before) =
      ⟨byteSize before, byteSize before + 1⟩ := by
  obtain ⟨before', hsource, hspan⟩ := at_line_column_of_onwards (onwards_of_place before c after)
  obtain rfl : before = before' := List.append_cancel_right hsource
  rw [hspan, min_byte_size_eq]

/-- A span for a line and a column starts before it stops and stays inside the text. -/
theorem at_line_column_within (source : List Char) (line column : Nat) :
    (atLineColumn source line column).start ≤ (atLineColumn source line column).stop ∧
      (atLineColumn source line column).stop ≤ byteSize source := by
  cases honwards : onwards? source line column with
  | none =>
      rw [at_line_column_of_none honwards]
      exact ⟨Nat.sub_le _ _, Nat.le_refl _⟩
  | some rest =>
      obtain ⟨before, rfl, hspan⟩ := at_line_column_of_onwards honwards
      rw [hspan, byte_size_append]
      show byteSize before ≤ min (byteSize before + 1) (byteSize before + byteSize rest) ∧
        min (byteSize before + 1) (byteSize before + byteSize rest) ≤
          byteSize before + byteSize rest
      omega

/-- The span for a line and a column can be cut out unless the character there has more than one
byte. -/
theorem slice_at_line_column_iff (source : List Char) (line column : Nat) :
    (∃ text, slice? source (atLineColumn source line column) = some text) ↔
      ∀ c ∈ marked? source line column, c.utf8Size = 1 := by
  unfold marked?
  cases honwards : onwards? source line column with
  | none =>
      rw [at_line_column_of_none honwards]
      exact slice_last_byte_iff source
  | some rest =>
      obtain ⟨before, rfl, hspan⟩ := at_line_column_of_onwards honwards
      rw [hspan]
      exact slice_byte_iff before rest

/-- The span of a line and a column lies in the text, and the text can be cut at its ends exactly if
the character that the line and column stand for, if there is one, takes a single byte. The span of
a character's line and column is its first byte, so it is the character in the same case. -/
theorem at_line_column_covers_byte (source : List Char) (line column : Nat) :
    let span := atLineColumn source line column
    span.start ≤ span.stop ∧ span.stop ≤ byteSize source ∧
      ((∃ text, slice? source span = some text) ↔
        ∀ c ∈ marked? source line column, c.utf8Size = 1) ∧
      ∀ before c after, source = before ++ c :: after → line = lineOf before →
        column = columnOf before →
        span = ⟨byteSize before, byteSize before + 1⟩ ∧
          (span = ⟨byteSize before, byteSize before + c.utf8Size⟩ ↔ c.utf8Size = 1) := by
  intro span
  obtain ⟨hstart, hstop⟩ := at_line_column_within source line column
  refine ⟨hstart, hstop, slice_at_line_column_iff source line column, ?_⟩
  intro before c after hsource hline hcolumn
  have hspan : span = ⟨byteSize before, byteSize before + 1⟩ := by
    subst hsource hline hcolumn
    exact at_line_column_of_place before c after
  refine ⟨hspan, ?_⟩
  rw [hspan, Span.mk.injEq, Nat.add_left_cancel_iff, eq_comm (a := 1)]
  exact and_iff_right rfl

/-- The span of the first character of `é` ends inside the character, and so does the one of a
line that this text does not have. -/
theorem not_at_line_column_whole :
    ¬ (∀ (before : List Char) (c : Char) (after : List Char),
      atLineColumn (before ++ c :: after) (lineOf before) (columnOf before) =
        ⟨byteSize before, byteSize before + c.utf8Size⟩) ∧
    ¬ ∀ (source : List Char) (line column : Nat),
      ∃ text, slice? source (atLineColumn source line column) = some text := by
  constructor
  · intro h
    have hspan := h [] 'é' []
    revert hspan
    decide
  · intro h
    obtain ⟨text, htext⟩ := h ['é'] 9 1
    have hnone : slice? ['é'] (atLineColumn ['é'] 9 1) = none := by decide
    rw [hnone] at htext
    cases htext

end Span

end TileCourse
